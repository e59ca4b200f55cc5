import Proxemby.Rewrite.Url

/-!
# What the rewriter learns

The registry that comes out of a body allows what it allowed before and the hosts of
the URLs that were rewritten, each of which is a string of the body.
-/

namespace Proxemby

open Utf8

namespace Rewriter

variable (rewriter : Rewriter) (toJson : Str → Str)

/-- An event reports a rewritten URL. -/
def RewriteEvent.Reports (event : RewriteEvent) : Prop :=
  ∃ url, urlParts event.original = some url ∧ event.rewritten = rewriter.rewritten url ∧
    event.scheme = url.scheme ∧ event.host = url.host

/-- What one round of the splice loop adds to the registry and the events. -/
theorem splice_learns {body : Bytes} {state state' : Splice} {item : FoundString}
    (ran : rewriter.splice toJson body state item = some state') :
    ∃ added : List RewriteEvent,
      state'.events = state.events ++ added ∧
      (∀ event ∈ added, RewriteEvent.Reports rewriter event ∧ event.original = item.value) ∧
      ∀ host, state'.registry.Allows host ↔
        state.registry.Allows host ∨ ∃ event ∈ added, event.host = host := by
  cases parts : urlParts item.value with
  | none =>
      rw [splice_skipped rewriter toJson parts, Option.some.injEq] at ran
      subst ran
      exact ⟨[], by simp, by simp, by simp⟩
  | some url =>
      simp only [splice, rewriteUrl_eq, parts, Option.map_some, Option.bind_eq_bind,
        Option.bind_eq_some_iff, Option.pure_def, Option.some.injEq] at ran
      obtain ⟨between, -, rfl⟩ := ran
      refine ⟨[_], rfl, ?_, ?_⟩
      · simp [RewriteEvent.Reports, parts]
      · intro host
        have named := host_ne_nil parts
        simp only [Registry.allows_allow, List.mem_singleton, exists_eq_left]
        constructor
        · rintro (before | ⟨rfl, -⟩)
          · exact .inl before
          · exact .inr rfl
        · rintro (before | rfl)
          · exact .inl before
          · exact .inr ⟨rfl, named⟩

theorem splices_learn {body : Bytes} {items : List FoundString} {state state' : Splice}
    (ran : items.foldlM (rewriter.splice toJson body) state = some state') :
    ∃ added : List RewriteEvent,
      state'.events = state.events ++ added ∧
      (∀ event ∈ added, RewriteEvent.Reports rewriter event ∧
        ∃ item ∈ items, event.original = item.value) ∧
      ∀ host, state'.registry.Allows host ↔
        state.registry.Allows host ∨ ∃ event ∈ added, event.host = host := by
  induction items generalizing state with
  | nil =>
      simp only [List.foldlM_nil, Option.pure_def, Option.some.injEq] at ran
      subst ran
      exact ⟨[], by simp, by simp, by simp⟩
  | cons item items ih =>
      simp only [List.foldlM_cons, Option.bind_eq_bind, Option.bind_eq_some_iff] at ran
      obtain ⟨middle, first, rest⟩ := ran
      obtain ⟨added, events, reports, hosts⟩ := rewriter.splice_learns toJson first
      obtain ⟨later, events', reports', hosts'⟩ := ih rest
      refine ⟨added ++ later, by rw [events', events, List.append_assoc], ?_, ?_⟩
      · intro event member
        rcases List.mem_append.mp member with member | member
        · exact ⟨(reports event member).1, item, List.mem_cons_self, (reports event member).2⟩
        · obtain ⟨report, other, among, same⟩ := reports' event member
          exact ⟨report, other, List.mem_cons_of_mem _ among, same⟩
      · intro host
        rw [hosts', hosts, or_assoc]
        refine or_congr_right ?_
        constructor
        · rintro (⟨event, member, same⟩ | ⟨event, member, same⟩)
          · exact ⟨event, List.mem_append_left _ member, same⟩
          · exact ⟨event, List.mem_append_right _ member, same⟩
        · rintro ⟨event, member, same⟩
          rcases List.mem_append.mp member with member | member
          · exact .inl ⟨event, member, same⟩
          · exact .inr ⟨event, member, same⟩

/-- A body teaches the registry the hosts of its events.  A body that is not UTF-8, or
that the scanner rejects, has none. -/
theorem rewritePlaybackInfo_learns {registry registry' : Registry} {body : Bytes}
    {out : Option Bytes} {events : List RewriteEvent}
    (ran : rewriter.rewritePlaybackInfo toJson registry body = some (registry', out, events)) :
    (∀ event ∈ events, RewriteEvent.Reports rewriter event ∧
      ∃ text items, decode body = some text ∧ scan text = some items ∧
        ∃ item ∈ items, event.original = item.value) ∧
    ∀ host, registry'.Allows host ↔
      registry.Allows host ∨ ∃ event ∈ events, event.host = host := by
  cases decoded : decode body with
  | none =>
      simp only [rewritePlaybackInfo, decoded, Option.some.injEq, Prod.mk.injEq] at ran
      obtain ⟨rfl, -, rfl⟩ := ran
      exact ⟨by simp, by simp⟩
  | some text =>
      cases found : scan text with
      | none =>
          simp only [rewritePlaybackInfo, decoded, found, Option.some.injEq,
            Prod.mk.injEq] at ran
          obtain ⟨rfl, -, rfl⟩ := ran
          exact ⟨by simp, by simp⟩
      | some items =>
          simp only [rewritePlaybackInfo, decoded, found, spliceAll, Option.bind_eq_bind,
            Option.bind_eq_some_iff] at ran
          obtain ⟨state, spliced, ended⟩ := ran
          obtain ⟨added, same, reports, hosts⟩ := rewriter.splices_learn toJson spliced
          obtain ⟨rfl, rfl⟩ : registry' = state.registry ∧ events = state.events := by
            cases written : state.out with
            | none =>
                simp only [written, Option.pure_def, Option.some.injEq, Prod.mk.injEq] at ended
                exact ⟨ended.1.symm, ended.2.2.symm⟩
            | some bytes =>
                simp only [written, Option.pure_def, Option.bind_eq_some_iff,
                  Option.some.injEq, Prod.mk.injEq] at ended
                obtain ⟨rest, -, left, -, right⟩ := ended
                exact ⟨left.symm, right.symm⟩
          rw [List.nil_append] at same
          rw [same]
          refine ⟨?_, hosts⟩
          intro event member
          obtain ⟨report, item, among, equal⟩ := reports event member
          exact ⟨report, text, items, rfl, found, item, among, equal⟩

/-- The loop adds the host of every URL that it rewrites. -/
theorem splices_teach {body : Bytes} {items : List FoundString} {state state' : Splice}
    (ran : items.foldlM (rewriter.splice toJson body) state = some state') {item : FoundString}
    (among : item ∈ items) {url : UrlParts} (parts : urlParts item.value = some url) :
    state'.registry.Allows url.host := by
  induction items generalizing state with
  | nil => cases among
  | cons first items ih =>
      simp only [List.foldlM_cons, Option.bind_eq_bind, Option.bind_eq_some_iff] at ran
      obtain ⟨middle, spliced, rest⟩ := ran
      rcases List.mem_cons.mp among with rfl | later
      · simp only [splice, rewriteUrl_eq, parts, Option.map_some, Option.bind_eq_bind,
          Option.bind_eq_some_iff, Option.pure_def, Option.some.injEq] at spliced
        obtain ⟨between, -, rfl⟩ := spliced
        obtain ⟨added, -, -, hosts⟩ := rewriter.splices_learn toJson rest
        refine (hosts url.host).mpr (.inl ?_)
        exact (Registry.allows_allow ..).mpr (.inr ⟨rfl, host_ne_nil parts⟩)
      · exact ih rest later

/-- A body teaches the registry the host of every URL string that is rewritten. -/
theorem rewritePlaybackInfo_teaches {registry registry' : Registry} {body : Bytes}
    {out : Option Bytes} {events : List RewriteEvent}
    (ran : rewriter.rewritePlaybackInfo toJson registry body = some (registry', out, events))
    {text : Str} {items : List FoundString} (decoded : decode body = some text)
    (found : scan text = some items) {item : FoundString} (among : item ∈ items)
    {url : UrlParts} (parts : urlParts item.value = some url) :
    registry'.Allows url.host := by
  simp only [rewritePlaybackInfo, decoded, found, spliceAll, Option.bind_eq_bind,
    Option.bind_eq_some_iff] at ran
  obtain ⟨state, spliced, ended⟩ := ran
  have allowed := rewriter.splices_teach toJson spliced among parts
  cases written : state.out with
  | none =>
      simp only [written, Option.pure_def, Option.some.injEq, Prod.mk.injEq] at ended
      rwa [← ended.1]
  | some bytes =>
      simp only [written, Option.pure_def, Option.bind_eq_some_iff, Option.some.injEq,
        Prod.mk.injEq] at ended
      obtain ⟨rest, -, same, -⟩ := ended
      rwa [← same]

end Rewriter

end Proxemby
