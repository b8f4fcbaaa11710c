import ApiHeaders.FileTree
import ApiHeaders.Invocation.Run
import ApiHeaders.Proofs.Outcomes
import ApiHeaders.Proofs.Timestamps

/-!
# Commands

A command with a configuration does what staging comes to. It ends if no annex leads to another
directory; what does not end here goes on for ever, by `Rendering.render_endless_iff`. If a command
only lists files, these are the ones that the same command writes.

## Main definitions

* `Registry.IsFlat` says that the annexes of a registry do not lead to other directories.
* `Invocation.Accords` says how listing files and writing them accord.

## Main statements

* `Generator.stage_ne_endless` says when staging ends.
* `Invocation.run_eq` says what a command does.
* `Invocation.accords_of_stage` compares listing files with writing them.
* `staged_commit` says to which outcome a run and its commands come.
-/

namespace ApiHeaders

variable {σ : Type} {sink : Sink σ} {read : σ → Source} {s : σ}

/-! ### Runs that end -/

/-- No annex of a registry leads to another directory. -/
def Registry.IsFlat (r : Registry) : Prop :=
  ∀ s ∈ r.sets.values, ∀ a ∈ s.annex, '/' ∉ a.toList

instance : DecidablePred Registry.IsFlat := fun _ => List.decidableBAll _ _

theorem Registry.Agree.isFlat_iff {names : Set String} {r r' : Registry} (h : r.Agree names r') :
    r'.IsFlat ↔ r.IsFlat := by
  rw [IsFlat, h.tables]
  rfl

theorem Table.mem_values_of_get? {κ ν : Type} [DecidableEq κ] {t : Table κ ν} {k : κ} {v : ν}
    (h : t.get? k = some v) : v ∈ t.values :=
  List.mem_map_of_mem (mem_entries_iff.2 h)

/-- Only a set whose annex leads to another directory is rendered without end. -/
theorem Rendering.not_isFlat_of_render {st : Rendering σ} {b : Boilerplate} {name : String}
    {t : Target} {guard : Bool} (h : (st.render sink b name t guard).1 = .error .endless) :
    ¬st.registry.IsFlat := by
  intro hflat
  cases hs : st.registry.set? name with
  | none =>
    rw [render, hs] at h
    cases h
  | some s =>
    cases hannex : s.annex with
    | none =>
      have hinline : s.annexFrom? t = none := by
        rw [ApiSet.annexFrom?, hannex, Option.filter_none]
      exact (render_endless_iff hs).1 h 0 _ (.inline hinline)
    | some a =>
      exact hflat s (Table.mem_values_of_get? hs) a hannex (exists_slash_of_endless hs hannex h)

/-- An output without end is one of a registry with such an annex. -/
theorem Run.not_isFlat_of_generate {run : Run} {c : Config} {timestamp : String} {form : Form}
    {o : Output} (h : (run.generate c timestamp form o).1 = .error .endless) :
    ∃ r, run.registries.get? o.registry.components = some r ∧ ¬r.IsFlat := by
  cases hr : run.registries.get? o.registry.components with
  | none =>
    simp only [generate, hr] at h
    cases h
  | some r =>
    refine ⟨r, rfl, ?_⟩
    cases hselect : select r o with
    | error e =>
      simp only [generate, hr, hselect] at h
      cases h
    | ok names =>
      rw [generate_of_select hr hselect] at h
      cases hall : renderAll Staged.sink (boilerplate c timestamp o) (target form o)
          (form = .header) ((run.begin o.path).rendering r) names with
      | mk outcome st =>
        simp only [hall] at h
        cases outcome with
        | ok content => cases eq_annexCollision_of_finish (Prod.ext h rfl)
        | error failure =>
          cases h
          obtain ⟨name, -, st₁, hagree, hrender⟩ := exists_render_of_renderAll hall
          exact fun hflat => Rendering.not_isFlat_of_render hrender (hagree.isFlat_iff.2 hflat)

/-- Staging ends if no annex leads to another directory. -/
theorem Generator.stage_ne_endless {g : Generator} {source : Source} {c : Config}
    (h : ∀ r ∈ (g.load source c.registries).2.1.registries.values, r.IsFlat) :
    (g.stage source c).1 ≠ .error .endless := by
  intro hendless
  obtain ⟨⟨outcome, g', warnings⟩, hstage⟩ : ∃ out, g.stage source c = out := ⟨_, rfl⟩
  rw [hstage] at hendless
  cases hendless
  cases hload : g.load source c.registries with
  | mk result more =>
    obtain ⟨g₁, w₁⟩ := more
    cases result with
    | error e =>
      rw [stage, hload] at hstage
      cases hstage
    | ok =>
      rw [hload] at h
      obtain ⟨run, entry, run', -, hmem, htables, hentry, -⟩ :=
        follows_of_stage_eq_error hload hstage
      cases entry with
      | reset p =>
        rw [Run.entry] at hentry
        split at hentry <;> cases hentry
      | output form o =>
        obtain ⟨r, hr, hnot⟩ := Run.not_isFlat_of_generate (congrArg Prod.fst hentry)
        have ho : o ∈ c.outputs := List.mem_filterMap.2 ⟨.output form o, hmem, rfl⟩
        obtain ⟨r₁, hr₁⟩ := exists_get?_of_load hload ho
        obtain ⟨r₂, hr₂, hagree⟩ := htables.get?_eq_some hr₁
        cases hr.symm.trans hr₂
        exact hnot (hagree.isFlat_iff.2 (h r₁ (Table.mem_values_of_get? hr₁)))

/-! ### Commands -/

/-- Reading the registries of a configuration from a disk gives their texts. -/
theorem Disk.exists_gather (read : σ → Source) (sink : Sink σ) (s : σ) (c : Config) :
    ∃ source, (ofSink read sink).gather c.registries s = (source, s) ∧
      ∀ p ∈ c.registries, source p = read s p := by
  refine ⟨_, gather_ofSink read sink c.registries s, fun p hp => ?_⟩
  have hnodup : ((c.registries.map fun p => (p.components, read s p)).map Prod.fst).Nodup := by
    rw [List.map_map]
    exact Config.nodup_distinct _
  have hmem : (p.components, read s p) ∈ c.registries.map fun p => (p.components, read s p) :=
    List.mem_map_of_mem (f := fun p => (p.components, read s p)) hp
  rw [Table.lookup_of_mem hnodup hmem, Option.getD_some]

namespace Invocation

variable {i : Invocation} {c : Config} {time time' : String}

/-- How a command that writes its files ends. -/
def written (warnings : List Warning) : Except Error Unit → Outcome
  | .ok () => { notices := warnings.map (·.message) }
  | .error e => failed warnings e

theorem handOn_write (read : σ → Source) (sink : Sink σ) (warnings : List Warning)
    (files : List NamedFile) (s : σ) :
    handOn (Disk.ofSink read sink) false warnings files s =
      (written warnings (commit sink files s).1, (commit sink files s).2) := by
  have hcommit := Disk.commit_ofSink read sink files s
  simp only [handOn, bind, StateT.bind, Bool.false_eq_true, if_false, hcommit]
  obtain ⟨result, s'⟩ := commit sink files s
  cases result <;> rfl

/-- A command stages the files of its configuration and hands them on. -/
theorem run_eq (h : Config.load (read s) i.config = .ok c) (sink : Sink σ) (time : String) :
    i.run (Disk.ofSink read sink) (pure time) s =
      match Generator.stage { timestamp := i.timestamp.getD time } (read s) c with
      | (.error .endless, _, _) => (none, s)
      | (.error (.raised e), _, warnings) => (some (failed warnings e), s)
      | (.ok files, _, warnings) =>
        let out := handOn (Disk.ofSink read sink) i.dryRun warnings files s
        (some out.1, out.2) := by
  obtain ⟨source, hgather, hsource⟩ := Disk.exists_gather read sink s c
  have hread : (Disk.ofSink read sink).read i.config s = (read s i.config, s) := rfl
  have hconfig : ((read s i.config).mapError (Error.file i.config)).bind
      (Config.ofFile i.config) = .ok c := h
  have hgenerate : i.run (Disk.ofSink read sink) (pure time) s =
      generate (Disk.ofSink read sink) (pure time) i c s := by
    simp only [run, bind, StateT.bind, hread, hconfig]
  have hstage : Generator.stage { timestamp := i.timestamp.getD time } (read s) c =
      Generator.stage { timestamp := i.timestamp.getD time } source c := by
    rw [Generator.stage, Generator.stage, Generator.load_congr _ hsource]
  have hpure (text : String) : (pure text : StateM σ String) s = (text, s) := rfl
  rw [hgenerate, hstage, generate]
  cases i.timestamp
  all_goals
    simp only [bind, StateT.bind, hpure, hgather, Option.getD_some, Option.getD_none]
    generalize Generator.stage _ source c = staged
    obtain ⟨outcome, g, warnings⟩ := staged
    rcases outcome with (e | _) | files <;> rfl

/-- Without a configuration there is nothing to do. -/
theorem run_of_error {e : Error} (h : Config.load (read s) i.config = .error e) (sink : Sink σ)
    (time : String) : i.run (Disk.ofSink read sink) (pure time) s = (some (failed [] e), s) := by
  have hread : (Disk.ofSink read sink).read i.config s = (read s i.config, s) := rfl
  have hconfig : ((read s i.config).mapError (Error.file i.config)).bind
      (Config.ofFile i.config) = .error e := h
  simp only [run, bind, StateT.bind, hread, hconfig]
  rfl

/-- How a command that only lists files and the same one that writes them, perhaps at another time,
accord. Both end with the error of staging, and nothing is written. Or else the paths of the staged
files are listed, and files with these paths are handed to the sink in this order. -/
inductive Accords (i : Invocation) (read : σ → Source) (sink : Sink σ) (s : σ) (c : Config)
    (time time' : String) : Except Error (List NamedFile) → Prop
  | failed {e : Error} {warnings : List Warning}
      (lists : ({ i with dryRun := true } : Invocation).run (Disk.ofSink read sink) (pure time) s =
        (some (failed warnings e), s))
      (writes : ({ i with dryRun := false } : Invocation).run (Disk.ofSink read sink)
        (pure time') s = (some (failed warnings e), s)) :
      Accords i read sink s c time time' (.error e)
  | done {files files' : List NamedFile} {warnings : List Warning} {result : Except Error Unit}
      {s' : σ}
      (lists : ({ i with dryRun := true } : Invocation).run (Disk.ofSink read sink) (pure time) s =
        (some { output := String.join (files.map fun f => f.path.text ++ "\n")
                notices := warnings.map (·.message) }, s))
      (staged : (Generator.stage { timestamp := i.timestamp.getD time' } (read s) c).1 = .ok files')
      (paths : files'.map (·.path) = files.map (·.path))
      (writes : ({ i with dryRun := false } : Invocation).run (Disk.ofSink read sink)
        (pure time') s = (some (written warnings result), s'))
      (receives : sink.Receives s files' result s') :
      Accords i read sink s c time time' (.ok files)

/-- Listing files and writing them accord in what is staged. -/
theorem accords_of_stage {outcome : Except Error (List NamedFile)}
    (hconfig : Config.load (read s) i.config = .ok c)
    (h : (Generator.stage { timestamp := i.timestamp.getD time } (read s) c).1 =
      outcome.mapError .raised) (sink : Sink σ) (time' : String) :
    i.Accords read sink s c time time' outcome := by
  have hlists := run_eq (i := { i with dryRun := true }) hconfig sink time
  have hwrites := run_eq (i := { i with dryRun := false }) hconfig sink time'
  have hsame := Generator.stage_withTime { timestamp := i.timestamp.getD time }
    (i.timestamp.getD time') (read s) c
  have hlater : Generator.withTime { timestamp := i.timestamp.getD time }
      (i.timestamp.getD time') = { timestamp := i.timestamp.getD time' } := rfl
  rw [hlater] at hsame
  cases hstage : Generator.stage { timestamp := i.timestamp.getD time } (read s) c with
  | mk first more =>
    cases hstage' : Generator.stage { timestamp := i.timestamp.getD time' } (read s) c with
    | mk second more' =>
      obtain ⟨g, warnings⟩ := more
      obtain ⟨g', warnings'⟩ := more'
      rw [hstage] at h hlists
      rw [hstage, hstage'] at hsame
      rw [hstage'] at hwrites
      obtain ⟨hpaths, hmore⟩ := hsame
      obtain rfl : warnings' = warnings := congrArg Prod.snd hmore
      obtain rfl : first = outcome.mapError .raised := h
      cases outcome with
      | error e =>
        cases second with
        | error failure =>
          cases hpaths
          exact .failed hlists hwrites
        | ok => cases hpaths
      | ok files =>
        cases second with
        | error => cases hpaths
        | ok files' =>
          have hwritten := congrArg (fun out : Outcome × σ => (some out.1, out.2))
            (handOn_write read sink warnings' files' s)
          refine .done hlists ?_ (Except.ok.inj hpaths) (hwrites.trans hwritten)
            (receives_commit sink files' s)
          rw [hstage']

end Invocation

/-! ### What a run and its commands come to -/

/-- Staging ends if no annex leads to another directory. Whenever it ends, its outcome is that of
the run with every sink, and listing the files of the run accords with writing them. -/
theorem staged_commit (g : Generator) (source : Source) (c : Config) :
    ((∀ r ∈ (g.load source c.registries).2.1.registries.values, r.IsFlat) →
      (g.stage source c).1 ≠ .error .endless) ∧
    ((g.stage source c).1 ≠ .error .endless →
      ∃ outcome : Except Error (List NamedFile),
        (g.stage source c).1 = outcome.mapError .raised ∧ g.ComesTo source c outcome ∧
        ∀ {σ : Type} (read : σ → Source) (sink : Sink σ) (s : σ) (i : Invocation)
          (time time' : String), Config.load (read s) i.config = .ok c →
          g = { timestamp := i.timestamp.getD time } → source = read s →
          i.Accords read sink s c time time' outcome) := by
  refine ⟨Generator.stage_ne_endless, fun hends => ?_⟩
  cases hstage : g.stage source c with
  | mk result more =>
    obtain ⟨g', warnings⟩ := more
    obtain ⟨outcome, rfl⟩ : ∃ outcome : Except Error (List NamedFile),
        result = outcome.mapError .raised := by
      rw [hstage] at hends
      rcases result with (e | _) | files
      · exact ⟨.error e, rfl⟩
      · exact absurd rfl hends
      · exact ⟨.ok files, rfl⟩
    refine ⟨outcome, rfl, Generator.comesTo_of_stage hstage, ?_⟩
    rintro σ read sink s i time time' hconfig rfl rfl
    exact Invocation.accords_of_stage hconfig (by rw [hstage]) sink time'

/-- A directory with a registry and the configuration of two headers. -/
def headersTree : FileTree :=
  (({} : FileTree).put ["al.xml"]
    (.file "<registry><feature api=\"al\" name=\"A\"/></registry>")).put ["al.yml"]
    (.file ("outputs:\n- \x7bkind: header, path: inc/a.h, registry: al.xml, apis: [al]\x7d\n"
      ++ "- \x7bkind: header, path: b.h, registry: al.xml, apis: [al]\x7d\n"))

/-- What this configuration says. -/
def headersConfig : Config where
  entries := [.output .header { path := ⟨"inc/a.h"⟩, registry := ⟨"al.xml"⟩, apis := ["al"] },
    .output .header { path := ⟨"b.h"⟩, registry := ⟨"al.xml"⟩, apis := ["al"] }]

/-- The command for this configuration. -/
def headersCommand : Invocation := { config := ⟨"al.yml"⟩, timestamp := some "T" }

/-- The paths of the two headers are listed, and these two are handed to the tree. -/
theorem headers_listed_and_written :
    let g : Generator := { timestamp := "T" }
    let disk := Disk.ofSink FileTree.source FileTree.sink
    Config.load headersTree.source headersCommand.config = .ok headersConfig ∧
      (∀ r ∈ (g.load headersTree.source headersConfig.registries).2.1.registries.values,
        r.IsFlat) ∧
      ∃ warnings files result tree',
        ({ headersCommand with dryRun := true } : Invocation).run disk (pure "") headersTree =
          (some { output := "inc/a.h\nb.h\n", notices := warnings.map Warning.message },
            headersTree) ∧
        files.map (·.path) = [⟨"inc/a.h"⟩, ⟨"b.h"⟩] ∧
        headersCommand.run disk (pure "") headersTree =
          (some (Invocation.written warnings result), tree') ∧
        FileTree.sink.Receives headersTree files result tree' := by
  intro g disk
  have hconfig : Config.load headersTree.source headersCommand.config = .ok headersConfig := by
    decide +kernel
  have hfacts : (∀ r ∈ (g.load headersTree.source headersConfig.registries).2.1.registries.values,
      r.IsFlat) ∧ (g.stage headersTree.source headersConfig).1.map (·.map (·.path)) =
        .ok [⟨"inc/a.h"⟩, ⟨"b.h"⟩] := by
    decide +kernel
  obtain ⟨hflat, hpaths⟩ := hfacts
  obtain ⟨hends, hlaw⟩ := staged_commit g headersTree.source headersConfig
  obtain ⟨outcome, hstage, -, hcommands⟩ := hlaw (hends hflat)
  have haccords := hcommands FileTree.source FileTree.sink headersTree headersCommand "" ""
    hconfig rfl rfl
  refine ⟨hconfig, hflat, ?_⟩
  rw [hstage] at hpaths
  cases haccords with
  | failed => cases hpaths
  | @done files files' warnings result tree' lists staged paths writes receives =>
    have hfiles : files.map (·.path) = [⟨"inc/a.h"⟩, ⟨"b.h"⟩] := Except.ok.inj hpaths
    have houtput : String.join (files.map fun f => f.path.text ++ "\n") = "inc/a.h\nb.h\n" := by
      have hlines := congrArg (List.map fun p : Path => p.text ++ "\n") hfiles
      rw [List.map_map] at hlines
      exact congrArg String.join hlines
    rw [houtput] at lists
    exact ⟨warnings, files', result, tree', lists, paths.trans hfiles, writes, receives⟩

end ApiHeaders
