import ApiHeaders.Proofs.Written

/-!
# Duplicates between sets

Several sets may refer to the same declaration. The memory of the registry is meant to keep it live
in one of them and commented out in the others. It remembers one set for each name, and all that a
set refers to, so that there are two ways past it: a declaration is lost if the first set that
refers to it does so for other API families only, and it is live twice if a set is written again
with nothing in between, after another set had it.

## Main definitions

* `Registry.Succeeds` says that calls made one after another succeed, `Registry.writings` lists
  what they write.
* `Writing.Mentions`, `Writing.Live` and `Writing.Suppressed` tell whether a declaration stands in
  what was written, and how.

## Main statements

* `Writing.live_iff` and `Writing.suppressed_iff` decide this by the last set that was written.
* `suppressed_after_live` says when a declaration that is commented out is live before.
* `live_in_two_sets_iff` says when a declaration is live in two sets.
-/

namespace ApiHeaders

variable {r : Registry} {w : Writing} {name : String}

namespace Writing

/-- All passes over the set came to their end. -/
def Complete (w : Writing) : Prop := ∃ items, (w.set.items w.registry w.target).result = .ok items

/-- The set refers, for the target, to a declaration that can be written. -/
def Mentions (w : Writing) (name : String) : Prop :=
  name ∈ w.set.targeted w.target ∧ ∃ d, w.registry.find? name = some d ∧ d.isHeader = false

/-- A declaration stands live in what was written. -/
def Live (w : Writing) (name : String) : Prop :=
  ∃ p ∈ Pass.order w.set.kind, ∃ b,
    (name, b) ∈ w.set.emissions w.registry w.target p ∧ b.isLive = true

/-- A declaration stands commented out in what was written. -/
def Suppressed (w : Writing) (name : String) : Prop :=
  ∃ p ∈ Pass.order w.set.kind, ∃ b,
    (name, b) ∈ w.set.emissions w.registry w.target p ∧ b.isLive = false

/-- Every declaration but the markers of headers is written by some pass. -/
theorem exists_pass (kind : SetKind) {d : Declaration} (h : d.isHeader = false) :
    ∃ p ∈ Pass.order kind, p.accepts d = true := by
  cases hd : d.isCommand with
  | false => exact ⟨.types, by simp [Pass.order], by simp [Pass.accepts, h, hd]⟩
  | true =>
    refine ⟨.leading kind, by simp [Pass.order], ?_⟩
    cases kind <;> simp [Pass.accepts, Pass.leading, h, hd]

theorem mentions_of_mem_emissions {p : Pass} {b : Block}
    (h : (name, b) ∈ w.set.emissions w.registry w.target p) : w.Mentions name := by
  obtain ⟨d, hd, -⟩ := ApiSet.writes_of_mem_emissions h
  obtain ⟨hname, haccept⟩ := ApiSet.mem_resolved.1 hd
  obtain ⟨hfind, hpass⟩ := Option.filter_eq_some_iff.1 haccept
  exact ⟨hname, d, hfind, by simp_all [Pass.accepts]⟩

/-- What a set mentions has a block in one of its passes. -/
theorem exists_emission (hw : w.Complete) (h : w.Mentions name) :
    ∃ p ∈ Pass.order w.set.kind, ∃ b, (name, b) ∈ w.set.emissions w.registry w.target p := by
  obtain ⟨items, hitems⟩ := hw
  obtain ⟨hname, d, hfind, hheader⟩ := h
  obtain ⟨p, hp, haccept⟩ := exists_pass w.set.kind hheader
  have hmem : (name, d) ∈ w.set.resolved w.registry w.target p :=
    ApiSet.mem_resolved.2 ⟨hname, Option.filter_eq_some_iff.2 ⟨hfind, haccept⟩⟩
  exact ⟨p, hp, ApiSet.exists_mem_emissions hitems hp hmem⟩

/-- A mentioned declaration is live exactly if no other set is remembered as its writer. -/
theorem live_iff (hw : w.Complete) :
    w.Live name ↔
      w.Mentions name ∧ ∀ last, w.registry.writtenBy? name = some last → last = w.set.name := by
  constructor
  · rintro ⟨p, hp, b, hb, hlive⟩
    refine ⟨mentions_of_mem_emissions hb, ?_⟩
    intro last hlast
    by_contra hne
    have hdead := (Block.follows_of_mem_emissions hb).2.1.2 ⟨last, hlast, hne⟩
    simp [hlive] at hdead
  · rintro ⟨hm, hlast⟩
    obtain ⟨p, hp, b, hb⟩ := exists_emission hw hm
    refine ⟨p, hp, b, hb, ?_⟩
    by_contra hdead
    obtain ⟨last, hl, hne⟩ :=
      (Block.follows_of_mem_emissions hb).2.1.1 (by simpa using hdead)
    exact hne (hlast last hl)

/-- A mentioned declaration is commented out exactly if another set is remembered as its writer. -/
theorem suppressed_iff (hw : w.Complete) :
    w.Suppressed name ↔
      w.Mentions name ∧ ∃ last, w.registry.writtenBy? name = some last ∧ last ≠ w.set.name := by
  constructor
  · rintro ⟨p, hp, b, hb, hdead⟩
    exact ⟨mentions_of_mem_emissions hb, (Block.follows_of_mem_emissions hb).2.1.1 hdead⟩
  · rintro ⟨hm, hlast⟩
    obtain ⟨p, hp, b, hb⟩ := exists_emission hw hm
    exact ⟨p, hp, b, hb, (Block.follows_of_mem_emissions hb).2.1.2 hlast⟩

theorem Mentions.mem_references (h : w.Mentions name) : name ∈ w.set.references :=
  ApiSet.targeted_subset_references h.1

end Writing

namespace Registry

/-- Calls made one after another on a registry all succeed. -/
def Succeeds (r : Registry) : List Call → Prop
  | [] => True
  | c :: cs => (c.run r).1.isOk ∧ (r.use (.render c)).Succeeds cs

/-- What calls made one after another on a registry write, in order. -/
def writings (r : Registry) : List Call → List Writing
  | [] => []
  | c :: cs => (c.writing? r).toList ++ (r.use (.render c)).writings cs

/-- Every call that succeeds brings out what it writes. -/
theorem emits_writings {calls : List Call} (h : r.Succeeds calls) :
    List.Forall₂ (fun c w => c.Emits w.registry w) calls (r.writings calls) := by
  induction calls generalizing r with
  | nil => exact .nil
  | cons c cs ih =>
    obtain ⟨hok, hrest⟩ := h
    obtain ⟨lines, hlines⟩ : ∃ lines, (c.run r).1 = .ok lines := by
      cases hrun : (c.run r).1 with
      | ok lines => exact ⟨lines, rfl⟩
      | error e => simp [hrun, Except.isOk, Except.toBool] at hok
    obtain ⟨w, hw, hemits⟩ := Call.emits_of_run hlines
    simp only [writings, hw, Option.toList_some, List.singleton_append]
    exact .cons (hemits.1 ▸ hemits) (ih hrest)

end Registry

theorem Call.eq_of_writing? {c : Call} (h : c.writing? r = some w) :
    w.registry = r ∧ w.Complete := by
  simp only [writing?, Option.bind_eq_bind, Option.bind_eq_some_iff] at h
  obtain ⟨s, -, t, -, items, hitems, hw⟩ := h
  cases hw
  refine ⟨rfl, items, ?_⟩
  cases hres : (s.items r t).result with
  | error e => simp [hres, Except.toOption] at hitems
  | ok items' => simp_all [Except.toOption]

namespace Registry

/-- What calls write is complete, has the tables that the registry had in the beginning, and
remembers the last of the sets written before. -/
theorem spec_writings (ws : List Writing) {pre post : List Writing} {calls : List Call}
    (h : ∀ name, r.writtenBy? name = lastWriter ws name)
    (hw : r.writings calls = pre ++ w :: post) :
    w.Complete ∧ w.registry = { r with written := w.registry.written } ∧
      ∀ name, w.registry.writtenBy? name = lastWriter (ws ++ pre) name := by
  induction calls generalizing r ws pre with
  | nil => simp [writings] at hw
  | cons c cs ih =>
    simp only [writings, use, Call.registry_run] at hw
    cases hc : c.writing? r with
    | none =>
      simp only [hc, Option.toList_none, List.nil_append] at hw
      exact ih ws h hw
    | some v =>
      obtain ⟨hr, hv⟩ := Call.eq_of_writing? hc
      simp only [hc, Option.toList_some, List.singleton_append] at hw
      cases pre with
      | nil =>
        obtain ⟨rfl, -⟩ := List.cons.inj hw
        refine ⟨hv, by rw [hr], by simpa [hr] using h⟩
      | cons u pre =>
        rw [List.cons_append] at hw
        obtain ⟨rfl, htail⟩ := List.cons.inj hw
        have hmark : ∀ name, (r.markWritten v.set).writtenBy? name = lastWriter (ws ++ [v]) name :=
          fun name => by rw [writtenBy?_markWritten, lastWriter_concat, h name]
        obtain ⟨hcomplete, hreg, hlast⟩ := ih _ hmark htail
        exact ⟨hcomplete, hreg, by simpa using hlast⟩

end Registry

/-! ### Loss and repetition -/

theorem exists_first {α : Type*} {P : α → Prop} {l : List α} (h : ∃ a ∈ l, P a) :
    ∃ early a late, l = early ++ a :: late ∧ P a ∧ ∀ b ∈ early, ¬ P b := by
  classical
  obtain ⟨a, ha, hP⟩ := h
  cases hfind : l.find? (fun a => decide (P a)) with
  | none => simpa [hP] using List.find?_eq_none.1 hfind a ha
  | some b =>
    obtain ⟨hb, early, late, rfl, hearly⟩ := List.find?_eq_some_iff_append.1 hfind
    exact ⟨early, b, late, rfl, by simpa using hb, by simpa using hearly⟩

theorem exists_of_lastWriter {ws : List Writing} {last : String}
    (h : lastWriter ws name = some last) :
    ∃ w ∈ ws, name ∈ w.set.references ∧ w.set.name = last := by
  obtain ⟨w, hw, rfl⟩ := Option.map_eq_some_iff.1 h
  refine ⟨w, by simpa using List.mem_of_find?_eq_some hw, ?_, rfl⟩
  simpa using List.find?_some hw

theorem lastWriter_eq_none {ws : List Writing} (h : ∀ w ∈ ws, name ∉ w.set.references) :
    lastWriter ws name = none := by
  cases hlast : lastWriter ws name with
  | none => rfl
  | some last =>
    obtain ⟨w, hw, hname, -⟩ := exists_of_lastWriter hlast
    exact absurd hname (h w hw)

/-- What successful calls write from a registry that remembers nothing. -/
structure Sequence (r : Registry) (ws : List Writing) : Prop where
  spec : ∀ {pre w post}, ws = pre ++ w :: post →
    w.Complete ∧ w.registry = { r with written := w.registry.written } ∧
      ∀ name, w.registry.writtenBy? name = lastWriter pre name

theorem Registry.sequence_writings (hr : ∀ name, r.writtenBy? name = none) (calls : List Call) :
    Sequence r (r.writings calls) :=
  ⟨fun hw => by simpa using spec_writings [] (by simpa using hr) hw⟩

namespace Sequence

variable {ws pre post : List Writing}

theorem live_iff (h : Sequence r ws) (hw : ws = pre ++ w :: post) :
    w.Live name ↔
      w.Mentions name ∧ ∀ last, lastWriter pre name = some last → last = w.set.name := by
  obtain ⟨hcomplete, -, hlast⟩ := h.spec hw
  rw [Writing.live_iff hcomplete, hlast]

theorem suppressed_iff (h : Sequence r ws) (hw : ws = pre ++ w :: post) :
    w.Suppressed name ↔
      w.Mentions name ∧ ∃ last, lastWriter pre name = some last ∧ last ≠ w.set.name := by
  obtain ⟨hcomplete, -, hlast⟩ := h.spec hw
  rw [Writing.suppressed_iff hcomplete, hlast]

/-- Names stand for the same declarations all along. -/
theorem mentions_iff (h : Sequence r ws) (hw : w ∈ ws) :
    w.Mentions name ↔
      name ∈ w.set.targeted w.target ∧ ∃ d, r.find? name = some d ∧ d.isHeader = false := by
  obtain ⟨pre, post, rfl⟩ := List.append_of_mem hw
  have hreg := (h.spec rfl).2.1
  unfold Writing.Mentions
  rw [hreg]
  rfl

/-- A declaration is live in the first set that refers to it, if that set mentions it. -/
theorem live_of_first (h : Sequence r ws) (hw : ws = pre ++ w :: post) (hm : w.Mentions name)
    (hpre : ∀ v ∈ pre, name ∉ v.set.references) : w.Live name :=
  (h.live_iff hw).2 ⟨hm, by simp [lastWriter_eq_none hpre]⟩

theorem loss (h : Sequence r ws) (hw : ws = pre ++ w :: post) (hdead : w.Suppressed name) :
    (∃ v ∈ pre, v.Live name) ∨
      ∃ early u late, pre = early ++ u :: late ∧ (∀ v ∈ early, name ∉ v.set.references) ∧
        name ∈ u.set.references ∧ name ∉ u.set.targeted u.target := by
  obtain ⟨hm, last, hlast, -⟩ := (h.suppressed_iff hw).1 hdead
  obtain ⟨v, hv, hname, -⟩ := exists_of_lastWriter hlast
  obtain ⟨early, u, late, rfl, hu, hearly⟩ :=
    exists_first (P := fun u => name ∈ u.set.references) ⟨v, hv, hname⟩
  have hsplit : ws = early ++ u :: (late ++ w :: post) := by simp [hw]
  by_cases htarget : name ∈ u.set.targeted u.target
  · have hresolves := ((h.mentions_iff (by simp [hw])).1 hm).2
    have hmu : u.Mentions name := (h.mentions_iff (by simp [hsplit])).2 ⟨htarget, hresolves⟩
    exact .inl ⟨u, by simp, h.live_of_first hsplit hmu hearly⟩
  · exact .inr ⟨early, u, late, rfl, hearly, hu, htarget⟩

theorem no_loss_iff (h : Sequence r ws) :
    (∀ pre w post, ws = pre ++ w :: post → w.Suppressed name → ∃ v ∈ pre, v.Live name) ↔
      ∀ pre w post, ws = pre ++ w :: post → w.Mentions name → (∀ v ∈ pre, ¬ v.Mentions name) →
        ∀ last, lastWriter pre name = some last → last = w.set.name := by
  constructor
  · intro hlive pre w post hw hm hfirst last hlast
    by_contra hne
    obtain ⟨v, hv, hvlive⟩ :=
      hlive pre w post hw ((h.suppressed_iff hw).2 ⟨hm, last, hlast, hne⟩)
    obtain ⟨p, -, b, hb, -⟩ := hvlive
    exact hfirst v hv (Writing.mentions_of_mem_emissions hb)
  · intro hfirst pre w post hw hdead
    obtain ⟨hm, last, hlast, hne⟩ := (h.suppressed_iff hw).1 hdead
    by_cases hpre : ∃ v ∈ pre, v.Mentions name
    · obtain ⟨early, v, late, rfl, hv, hearly⟩ := exists_first hpre
      have hsplit : ws = early ++ v :: (late ++ w :: post) := by simp [hw]
      exact ⟨v, by simp, (h.live_iff hsplit).2 ⟨hv, hfirst early v _ hsplit hv hearly⟩⟩
    · exact absurd (hfirst pre w post hw hm (fun v hv hmv => hpre ⟨v, hv, hmv⟩) last hlast) hne

/-- A set that has a declaration live after another set is written again. -/
theorem again_of_live (h : Sequence r ws) (hw : ws = pre ++ w :: post) (hlive : w.Live name)
    {v : Writing} (hv : v ∈ pre) (hvlive : v.Live name) :
    lastWriter pre name = some w.set.name := by
  obtain ⟨-, hlast⟩ := (h.live_iff hw).1 hlive
  cases hl : lastWriter pre name with
  | some last => rw [hlast last hl]
  | none =>
    obtain ⟨early, late, rfl⟩ := List.append_of_mem hv
    have hsplit : ws = early ++ v :: (late ++ w :: post) := by simp [hw]
    have hname := ((h.live_iff hsplit).1 hvlive).1.mem_references
    simp only [lastWriter, Option.map_eq_none_iff, List.find?_eq_none] at hl
    exact absurd hname (by simpa using hl v (by simp))

theorem live_twice_iff (h : Sequence r ws) :
    (∃ v ∈ ws, ∃ w ∈ ws, v.set.name ≠ w.set.name ∧ v.Live name ∧ w.Live name) ↔
      ∃ pre w post, ws = pre ++ w :: post ∧ w.Mentions name ∧
        lastWriter pre name = some w.set.name ∧
        ∃ v ∈ pre, v.set.name ≠ w.set.name ∧ v.Live name := by
  constructor
  · rintro ⟨v, hv, w, hw, hne, hvlive, hwlive⟩
    obtain ⟨pre, post, hsplit⟩ := List.append_of_mem hw
    have hv' : v ∈ pre ∨ v ∈ post := by
      rw [hsplit, List.mem_append, List.mem_cons] at hv
      rcases hv with hv | rfl | hv
      · exact .inl hv
      · exact absurd rfl hne
      · exact .inr hv
    rcases hv' with hv | hv
    · exact ⟨pre, w, post, hsplit, ((h.live_iff hsplit).1 hwlive).1,
        h.again_of_live hsplit hwlive hv hvlive, v, hv, hne, hvlive⟩
    · obtain ⟨mid, late, rfl⟩ := List.append_of_mem hv
      have hsplit' : ws = (pre ++ w :: mid) ++ v :: late := by simp [hsplit]
      exact ⟨_, v, late, hsplit', ((h.live_iff hsplit').1 hvlive).1,
        h.again_of_live hsplit' hvlive (by simp) hwlive, w, by simp, hne.symm, hwlive⟩
  · rintro ⟨pre, w, post, hsplit, hm, hlast, v, hv, hne, hvlive⟩
    refine ⟨v, by simp [hsplit, hv], w, by simp [hsplit], hne, hvlive, ?_⟩
    exact (h.live_iff hsplit).2 ⟨hm, fun last hl => by simp_all⟩

theorem not_live_twice (h : Sequence r ws) (hnodup : (ws.map (·.set.name)).Nodup) {v : Writing}
    (hv : v ∈ ws) (hw : w ∈ ws) (hvlive : v.Live name) (hwlive : w.Live name) :
    v.set.name = w.set.name := by
  by_contra hne
  obtain ⟨pre, w', post, rfl, -, hlast, -⟩ := h.live_twice_iff.1 ⟨v, hv, w, hw, hne, hvlive, hwlive⟩
  obtain ⟨u, hu, -, hname⟩ := exists_of_lastWriter hlast
  rw [List.map_append, List.map_cons, List.nodup_append] at hnodup
  exact hnodup.2.2 _ (List.mem_map_of_mem hu) _ (by simp) hname

end Sequence

/-! ### Duplicates in a sequence of calls -/

/-- A declaration that is commented out was live before, unless the first set that refers to it
does so only in requirements for other API families than those of its target. None is lost in this
way exactly if the first set that has it at all is not written after another set that refers to
it, with no other such set in between. -/
theorem suppressed_after_live (r : Registry) (calls : List Call)
    (hr : ∀ name, r.writtenBy? name = none) (hcalls : r.Succeeds calls) :
    let ws := r.writings calls
    List.Forall₂ (fun c w => c.Emits w.registry w) calls ws ∧
    ∀ name,
      (∀ pre w post, ws = pre ++ w :: post → w.Suppressed name →
        (∃ v ∈ pre, v.Live name) ∨
          ∃ early u late, pre = early ++ u :: late ∧ (∀ v ∈ early, name ∉ v.set.references) ∧
            name ∈ u.set.references ∧ name ∉ u.set.targeted u.target) ∧
      ((∀ pre w post, ws = pre ++ w :: post → w.Suppressed name → ∃ v ∈ pre, v.Live name) ↔
        ∀ pre w post, ws = pre ++ w :: post → w.Mentions name → (∀ v ∈ pre, ¬ v.Mentions name) →
          ∀ last, lastWriter pre name = some last → last = w.set.name) := by
  have hseq := Registry.sequence_writings hr calls
  exact ⟨Registry.emits_writings hcalls, fun name =>
    ⟨fun pre w post hw hdead => hseq.loss hw hdead, hseq.no_loss_iff⟩⟩

/-- Of two sets that require a constant for all families, the second has it commented out, and the
first has it live. -/
theorem constant_suppressed_after_live :
    let r := sharedConstant none
    let calls := [intoHeader "A", intoHeader "B"]
    (∀ name, r.writtenBy? name = none) ∧ r.Succeeds calls ∧
      ∃ a b, r.writings calls = [a, b] ∧ b.Suppressed "AL_N" ∧ a.Live "AL_N" := by
  intro r calls
  have hr : ∀ name, r.writtenBy? name = none := fun _ => rfl
  have hcalls : r.Succeeds calls := ⟨rfl, rfl, trivial⟩
  let a : Writing := ⟨requiringConstant "A" none, (intoHeader "A").target, r⟩
  let b : Writing := ⟨requiringConstant "B" none, a.target, r.markWritten a.set⟩
  have hws : r.writings calls = [a] ++ b :: [] := rfl
  have hdead : b.Suppressed "AL_N" := by
    have hmentions : b.Mentions "AL_N" := ⟨by decide, _, rfl, rfl⟩
    refine ((Registry.sequence_writings hr calls).suppressed_iff hws).2 ⟨hmentions, ?_⟩
    exact ⟨"A", rfl, by decide⟩
  refine ⟨hr, hcalls, a, b, hws, hdead, ?_⟩
  rcases ((suppressed_after_live r calls hr hcalls).2 "AL_N").1 [a] b [] hws hdead with
    ⟨v, hv, hlive⟩ | ⟨early, u, late, hsplit, -, -, htarget⟩
  · rwa [List.mem_singleton.1 hv] at hlive
  · have hu : u ∈ [a] := by simp [hsplit]
    rw [List.mem_singleton.1 hu] at htarget
    exact absurd (by decide) htarget

/-- A set that refers to a constant for another family takes it away from the next set. -/
theorem constant_lost :
    ¬ ∀ (r : Registry) (calls : List Call), (∀ name, r.writtenBy? name = none) →
      r.Succeeds calls → ∀ pre w post name, r.writings calls = pre ++ w :: post →
        w.Suppressed name → ∃ v ∈ pre, v.Live name := by
  intro h
  let r := sharedConstant (some "alc")
  let calls := [intoHeader "A", intoHeader "B"]
  have hr : ∀ name, r.writtenBy? name = none := fun _ => rfl
  let a : Writing := ⟨requiringConstant "A" (some "alc"), (intoHeader "A").target, r⟩
  let b : Writing := ⟨requiringConstant "B" none, a.target, r.markWritten a.set⟩
  have hws : r.writings calls = [a] ++ b :: [] := rfl
  have hdead : b.Suppressed "AL_N" := by
    have hmentions : b.Mentions "AL_N" := ⟨by decide, _, rfl, rfl⟩
    refine ((Registry.sequence_writings hr calls).suppressed_iff hws).2 ⟨hmentions, ?_⟩
    exact ⟨"A", rfl, by decide⟩
  obtain ⟨v, hv, p, -, block, hblock, -⟩ := h r calls hr ⟨rfl, rfl, trivial⟩ _ _ _ "AL_N" hws hdead
  rw [List.mem_singleton.1 hv] at hblock
  exact absurd (Writing.mentions_of_mem_emissions hblock).1 (by decide)

/-- A declaration is live in two sets exactly if one of them is written when it was also the last
to refer to the declaration, after the other had it live. No declaration is if no set is written
twice. -/
theorem live_in_two_sets_iff (r : Registry) (calls : List Call)
    (hr : ∀ name, r.writtenBy? name = none) (hcalls : r.Succeeds calls) :
    let ws := r.writings calls
    List.Forall₂ (fun c w => c.Emits w.registry w) calls ws ∧
    ∀ name,
      ((∃ v ∈ ws, ∃ w ∈ ws, v.set.name ≠ w.set.name ∧ v.Live name ∧ w.Live name) ↔
        ∃ pre w post, ws = pre ++ w :: post ∧ w.Mentions name ∧
          lastWriter pre name = some w.set.name ∧
          ∃ v ∈ pre, v.set.name ≠ w.set.name ∧ v.Live name) ∧
      ((ws.map (·.set.name)).Nodup → ∀ v ∈ ws, ∀ w ∈ ws, v.Live name → w.Live name →
        v.set.name = w.set.name) := by
  have hseq := Registry.sequence_writings hr calls
  exact ⟨Registry.emits_writings hcalls, fun name =>
    ⟨hseq.live_twice_iff, fun hnodup v hv w hw => hseq.not_live_twice hnodup hv hw⟩⟩

/-- A set that is written twice after another one has their common constant live again. -/
theorem constant_live_in_two_sets :
    let r := sharedConstant none
    let calls := [intoHeader "A", intoHeader "B", intoHeader "B"]
    (∀ name, r.writtenBy? name = none) ∧ r.Succeeds calls ∧
      ∃ v ∈ r.writings calls, ∃ w ∈ r.writings calls,
        v.set.name ≠ w.set.name ∧ v.Live "AL_N" ∧ w.Live "AL_N" := by
  intro r calls
  have hr : ∀ name, r.writtenBy? name = none := fun _ => rfl
  have hcalls : r.Succeeds calls := ⟨rfl, rfl, rfl, trivial⟩
  let a : Writing := ⟨requiringConstant "A" none, (intoHeader "A").target, r⟩
  let b : Writing := ⟨requiringConstant "B" none, a.target, r.markWritten a.set⟩
  let c : Writing := ⟨b.set, b.target, b.registry.markWritten b.set⟩
  have hws : r.writings calls = [] ++ a :: [b, c] := rfl
  have hlive : a.Live "AL_N" :=
    (Registry.sequence_writings hr calls).live_of_first hws ⟨by decide, _, rfl, rfl⟩ nofun
  refine ⟨hr, hcalls, ((live_in_two_sets_iff r calls hr hcalls).2 "AL_N").1.2 ?_⟩
  exact ⟨[a, b], c, [], hws, ⟨by decide, _, rfl, rfl⟩, rfl, a, by simp, by decide, hlive⟩

end ApiHeaders
