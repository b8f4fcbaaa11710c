import ApiHeaders.Proofs.Commit
import ApiHeaders.Proofs.Extraction
import ApiHeaders.Proofs.HeaderParts
import ApiHeaders.Proofs.Satellites

/-!
# The conditionals of generated headers

In every header of a run, main or satellite, conditionals nest, and each guard is closed by a
directive of its own. The texts that come from outside are relied on to close the conditionals that
they open; names are relied on to hold no line break. The `extern "C"` block of a satellite is
opened by its preamble, that of a header by its platform macros.

## Main definitions

* `Output.Tidy` says what the order of directives relies on in an output.
* `Run.foreign` lists the lines of a header that come from outside.

## Main statements

* `conditionals_nest` says that the conditionals of all headers of a run nest.
-/

namespace ApiHeaders

open Text (physicalLines)

variable {b : Boilerplate} {t t' : Target} {s : ApiSet} {r : Registry} {w : Writing}

/-! ### Preambles -/

/-- What the order of directives relies on in an output. -/
structure Output.Tidy (o : Output) : Prop where
  path : '\n' ∉ o.path.text.toList
  scope : ∀ scope ∈ o.platformScope, '\n' ∉ scope.toList
  preamble : Nested (Text.pieces '\n' (o.preamble.getD ""))

theorem Output.Tidy.nested_preambleText {o : Output} (h : o.Tidy) :
    Nested (Text.pieces '\n' o.preambleText) := by
  rw [pieces_preambleText h.scope]
  refine Nested.append ?_ h.preamble
  cases o.platformScope with
  | none => rfl
  | some scope => exact nested_platformLines scope

/-- The platform macros open the `extern "C"` block. -/
theorem filter_platformLines (scope : String) :
    (platformLines scope).filter isLinkage = ["extern \"C\" \x7b"] := by
  have hhash (opening : String) (hopening : opening.toList.head? = some '#') (rest : String) :
      isLinkage (opening ++ rest) = false := not_isLinkage_append hopening (by decide) rest
  have hblank (opening : String) (hopening : opening.toList.head? = some ' ') (rest : String) :
      isLinkage (opening ++ rest) = false := not_isLinkage_append hopening (by decide) rest
  simp only [platformLines, List.filter_cons, String.append_assoc, hhash "#define " rfl,
    hhash "#undef " rfl, hhash "#if " rfl, hhash "#ifndef " rfl, hblank " #define " rfl,
    hblank "  #define " rfl]
  rfl

/-- The preamble of a satellite includes other headers and opens the `extern "C"` block. -/
theorem Target.pieces_satellite (annex : String) (hform : t.form = .header)
    (hfile : '\n' ∉ t.path.fileName.toList)
    (hheaders : ∀ header ∈ s.headers r, '\n' ∉ header.toList) :
    Nested (Text.pieces '\n' (t.satellite annex (s.headers r)).preamble) ∧
      (Text.pieces '\n' (t.satellite annex (s.headers r)).preamble).filter isLinkage =
        ["extern \"C\" \x7b"] := by
  let includes := (s.headers r).map fun header => "#include <" ++ header ++ ">"
  have hpieces : Text.pieces '\n' (t.satellite annex (s.headers r)).preamble =
      includes ++ (["#include \"" ++ t.path.fileName ++ "\""] ++ linkageLines) := by
    have hincludes : physicalLines includes = includes :=
      Text.physicalLines_of_not_mem (List.forall_mem_map.2 fun header hheader => by
        simp [hheaders header hheader])
    have hlines := Writing.pieces_preamble (w := ⟨s, t.satellite annex (s.headers r), r⟩) hform rfl
      hfile
    exact hlines.trans (congrArg (· ++ _) hincludes)
  -- A name between angle brackets is no directive of ours.
  have hnone (header : String) : isConditional ("#include <" ++ header ++ ">") = false := by
    have hof : Directive.of? ("#include <" ++ header ++ ">") = none := by
      rw [Directive.of?, String.append_assoc, String.toList_append]
      rfl
    rw [isConditional, hof]
    rfl
  have hfilter : includes.filter isLinkage = [] :=
    List.filter_eq_nil_iff.2 (List.forall_mem_map.2 fun header _ => by
      rw [String.append_assoc, not_isLinkage_append rfl (by decide)]
      exact Bool.false_ne_true)
  have hinclude : isLinkage ("#include \"" ++ (t.path.fileName ++ "\"")) = false :=
    not_isLinkage_append rfl (by decide) _
  rw [hpieces]
  constructor
  · have hlinkage : Nested linkageLines := rfl
    exact (nested_of_not_isConditional (List.forall_mem_map.2 fun header _ => hnone header)).append
      ((nested_include _).append hlinkage)
  · rw [List.filter_append, List.filter_append, hfilter, String.append_assoc, List.filter_cons,
      hinclude]
    rfl

/-! ### Files -/

/-- A target is a header, and no name of its path holds a line break. -/
structure Target.Tidy (t : Target) : Prop where
  form : t.form = .header
  path : '\n' ∉ t.path.text.toList

namespace Target

theorem Tidy.fileName (h : t.Tidy) : '\n' ∉ t.path.fileName.toList :=
  Path.break_not_mem_fileName h.path

theorem Tidy.satellite (h : t.Tidy) {annex : String} (hannex : ∀ a ∈ s.annex, '\n' ∉ a.toList)
    (ha : s.annexFrom? t = some annex) : (t.satellite annex (s.headers r)).Tidy where
  form := h.form
  path := break_not_mem_annexPath h.path (hannex annex (Option.filter_eq_some_iff.1 ha).1)

theorem Tidy.writtenInto (h : t.Tidy) (hannex : ∀ a ∈ s.annex, '\n' ∉ a.toList) :
    (s.writtenInto r t).Tidy := by
  cases ha : s.annexFrom? t with
  | none => rwa [ApiSet.writtenInto_of_none ha]
  | some annex =>
    rw [ApiSet.writtenInto_of_annex ha]
    exact h.satellite hannex ha

/-- What a satellite inherits. The target that it belongs to has inherited the same. -/
theorem Descends.inherits (h : t.Descends s r t') (ht : t.Tidy)
    (hannex : ∀ a ∈ s.annex, '\n' ∉ a.toList) :
    t'.Tidy ∧ t'.apis = t.apis ∧
      ∃ (t₁ : Target) (annex : String), t₁.Tidy ∧ t' = t₁.satellite annex (s.headers r) := by
  induction h with
  | first ha => exact ⟨ht.satellite hannex ha, rfl, t, _, ht, rfl⟩
  | next _ ha ih =>
    obtain ⟨ht', hapis, -⟩ := ih
    exact ⟨ht'.satellite hannex ha, hapis, _, _, ht', rfl⟩

/-- A header is put together from parts whose guards nest. -/
structure Nests (t : Target) (b : Boilerplate) (ws : List Writing) (text : String) : Prop where
  lines : Text.pieces '\n' text = (t.parts b ws).flatMap Part.lines
  matched : Matched (t.parts b ws)
  nested : Nested (Text.pieces '\n' text)

theorem nests_file {ws : List Writing} (ht : t.Tidy) (hb : b.Tidy)
    (hpreamble : Nested (Text.pieces '\n' t.preamble))
    (hws : ∀ w ∈ ws, w.Tidy ∧ w.target = w.set.writtenInto w.registry t) :
    t.Nests b ws (t.file b (ws.flatMap (·.inHeader t))) := by
  have hlines := pieces_file_eq_parts ht.form
    (Boilerplate.break_not_mem_guard hb.guardPrefix ht.fileName) fun w hw => by
      obtain ⟨htidy, htarget⟩ := hws w hw
      have hinto : w.target.Tidy := htarget ▸ ht.writtenInto htidy.annex
      exact ⟨hinto.form, hinto.fileName, htidy⟩
  have hmatched := matched_parts (t := t) hb hpreamble fun w hw => (hws w hw).1
  exact ⟨hlines, hmatched, hlines ▸ hmatched.nested⟩

end Target

namespace Writing

/-- A set has the same items in a satellite, however deep. -/
theorem items_writing (hform : w.target.form = t.form) (hapis : w.target.apis = t.apis) :
    (w.set.writing w.registry t).items = w.items := by
  have hparts : w.set.items w.registry (w.set.writtenInto w.registry t) =
      w.set.items w.registry w.target :=
    ApiSet.items_congr ((ApiSet.form_writtenInto ..).trans hform.symm)
      ((ApiSet.apis_writtenInto ..).trans hapis.symm)
  exact congrArg (fun items => (items.result.toOption).getD []) hparts

theorem Tidy.writing (h : w.Tidy) (hitems : (w.set.writing w.registry t).items = w.items) :
    (w.set.writing w.registry t).Tidy := by
  constructor
  case name => exact h.name
  case annex => exact h.annex
  case headers => exact h.headers
  case scopes =>
    rw [hitems]
    exact h.scopes
  case doc => exact h.doc
  case comments =>
    rw [hitems]
    exact h.comments
  case live =>
    rw [hitems]
    exact h.live

end Writing

/-- A satellite of a header. -/
theorem Target.Descends.nests_satellite (h : t.Descends w.set w.registry t') (ht : t.Tidy)
    (hb : b.Tidy) (hw : w.Tidy) (htarget : w.target = w.set.writtenInto w.registry t) :
    t'.Nests b [w.set.writing w.registry t'] (w.set.satelliteFile w.registry b t').text ∧
      (Text.pieces '\n' t'.preamble).filter isLinkage = ["extern \"C\" \x7b"] ∧
      (w.set.writing w.registry t').foreign = w.foreign := by
  obtain ⟨ht', hapis, t₁, annex, ht₁, heq⟩ := h.inherits ht hw.annex
  obtain ⟨hpreamble, hlinkage⟩ := t₁.pieces_satellite annex ht₁.form ht₁.fileName hw.headers
  have hitems : (w.set.writing w.registry t').items = w.items := by
    apply Writing.items_writing
    · rw [htarget, ApiSet.form_writtenInto, ht.form, ht'.form]
    · rw [htarget, ApiSet.apis_writtenInto, hapis]
  have hforeign : (w.set.writing w.registry t').foreign = w.foreign := by
    rw [Writing.foreign, Writing.foreign, hitems]
    rfl
  rw [← heq] at hpreamble hlinkage
  have hws : ∀ v ∈ [w.set.writing w.registry t'],
      v.Tidy ∧ v.target = v.set.writtenInto v.registry t' :=
    List.forall_mem_singleton.2 ⟨hw.writing hitems, rfl⟩
  have hnests := nests_file ht' hb hpreamble hws
  rw [List.flatMap_singleton] at hnests
  exact ⟨hnests, hlinkage, hforeign⟩

/-- The `extern "C"` block of a header whose preamble opens it. -/
theorem Target.Nests.linkage {ws : List Writing} {text : String} (h : t.Nests b ws text)
    (hb : b.Tidy) (hlicense : ∀ line ∈ Text.pieces '\n' b.license, isLinkage line = false)
    (hws : ∀ w ∈ ws, ∀ line ∈ w.foreign, isLinkage line = false)
    (hpreamble : (Text.pieces '\n' t.preamble).filter isLinkage = ["extern \"C\" \x7b"]) :
    (Text.pieces '\n' text).filter isLinkage =
      ["extern \"C\" \x7b", "\x7d /* extern \"C\" */"] := by
  rw [h.lines, linkage_parts hb hlicense hws, hpreamble]
  rfl

/-! ### Runs -/

/-- The lines of a header that come from outside: its license, its own preamble, and what the
registry contributes to its sets. -/
def Run.foreign (run : Run) (c : Config) (o : Output) : List String :=
  Text.pieces '\n' c.license ++ Text.pieces '\n' (o.preamble.getD "")
    ++ (run.writings o).flatMap (·.foreign)

theorem Run.target_of_mem_writings {run : Run} {o : Output} (hw : w ∈ run.writings o) :
    w.target = w.set.writtenInto w.registry (target .header o) := by
  unfold writings at hw
  split at hw
  · cases hw
  · split at hw
    · cases hw
    · exact Registry.target_of_mem_selection hw

variable {g g' : Generator} {source : Source} {c : Config} {files : List NamedFile}
  {warnings : List Warning}

/-- The files of a successful run whose texts from outside close the conditionals that they open.
Each is staged by an entry, and in each that a header entry stages, for the header or for a
satellite, the conditionals nest and every guard is closed by a directive of its own. If no line
from outside opens or closes an `extern "C"` block, satellites and headers with platform macros open
one and close it afterwards. -/
theorem conditionals_nest (h : g.stage source c = (.ok files, g', warnings))
    (houtputs : ∀ o, .output .header o ∈ c.entries →
      o.Tidy ∧ (Run.boilerplate c g.timestamp o).Tidy)
    (hwritings : ∀ run o, g.Follows source c run (.output .header o) →
      ∀ w ∈ run.writings o, w.Tidy) :
    (∀ f ∈ files, ∃ run e, g.Follows source c run e ∧
      ∃ staged ∈ run.entryFiles c g.timestamp e,
        staged.path.same f.path ∧ staged.text = f.text) ∧
    ∀ run o, g.Follows source c run (.output .header o) →
      ∀ f ∈ run.outputFiles c g.timestamp .header o,
        let b := Run.boilerplate c g.timestamp o
        let t := Run.target .header o
        (∃ t' ws, (t' = t ∧ ws = run.writings o ∨
            ∃ w ∈ run.writings o, t.Descends w.set w.registry t' ∧
              ws = [w.set.writing w.registry t']) ∧
          f.path = t'.path ∧ f.text = t'.file b (ws.flatMap (·.inHeader t')) ∧
            t'.Nests b ws f.text) ∧
        ((∀ line ∈ run.foreign c o, isLinkage line = false) →
          Run.IsSatelliteFile b t (run.writings o) f ∨ o.platformScope.isSome →
            (Text.pieces '\n' f.text).filter isLinkage =
              ["extern \"C\" \x7b", "\x7d /* extern \"C\" */"]) := by
  constructor
  · intro f hf
    have hcondenses := Generator.condenses_stage (by rw [h])
    obtain ⟨before, last, after, hhistory, hsame, htext, -⟩ := hcondenses.texts f hf
    have hmem : last ∈ g.history source c := by
      rw [hhistory]
      exact List.mem_append_right _ List.mem_cons_self
    obtain ⟨run, e, hfollows, hlast⟩ := Generator.follows_of_mem_history hmem
    exact ⟨run, e, hfollows, last, hlast, hsame, htext⟩
  · intro run o hfollows f hf b t
    have ho : .output .header o ∈ c.entries := by
      obtain ⟨g₁, w₁, before, after, -, hentries, -⟩ := hfollows
      rw [hentries]
      exact List.mem_append_right _ List.mem_cons_self
    obtain ⟨htidy, hb⟩ := houtputs o ho
    have hws := hwritings run o hfollows
    have ht : t.Tidy := ⟨rfl, htidy.path⟩
    obtain ⟨run', hgenerate⟩ := hfollows.entry_eq_ok h
    have hsatellite : ∀ w ∈ run.writings o, ∀ t', t.Descends w.set w.registry t' →
        t'.Nests b [w.set.writing w.registry t'] (w.set.satelliteFile w.registry b t').text ∧
          (Text.pieces '\n' t'.preamble).filter isLinkage = ["extern \"C\" \x7b"] ∧
          (w.set.writing w.registry t').foreign = w.foreign :=
      fun w hw t' hdescends =>
        hdescends.nests_satellite ht hb (hws w hw) (Run.target_of_mem_writings hw)
    have hheader : t.Nests b (run.writings o)
        (t.file b ((run.writings o).flatMap (·.inHeader t))) :=
      Target.nests_file ht hb htidy.nested_preambleText fun w hw =>
        ⟨hws w hw, Run.target_of_mem_writings hw⟩
    have hfile := Run.mem_outputFiles hgenerate hf
    refine ⟨?_, fun hforeign hlinked => ?_⟩
    · rcases hfile with rfl | ⟨w, hw, t', hdescends, rfl⟩
      · exact ⟨t, run.writings o, .inl ⟨rfl, rfl⟩, rfl, rfl, hheader⟩
      · refine ⟨t', _, .inr ⟨w, hw, hdescends, rfl⟩, rfl, ?_, (hsatellite w hw t' hdescends).1⟩
        rw [List.flatMap_singleton]
        rfl
    · simp only [Run.foreign, List.forall_mem_append, List.forall_mem_flatMap] at hforeign
      obtain ⟨⟨hlicense, hpreamble⟩, hsets⟩ := hforeign
      -- A header that is no satellite has platform macros, which open the block.
      have hcases : Run.IsSatelliteFile b t (run.writings o) f ∨
          f = ⟨t.path, t.file b ((run.writings o).flatMap (·.inHeader t))⟩ ∧
            o.platformScope.isSome := by
        rcases hlinked with hlinked | hscope
        · exact .inl hlinked
        · rcases hfile with hfile | hfile
          · exact .inr ⟨hfile, hscope⟩
          · exact .inl hfile
      rcases hcases with ⟨w, hw, t', hdescends, rfl⟩ | ⟨rfl, hscope⟩
      · obtain ⟨hnests, hopens, hsame⟩ := hsatellite w hw t' hdescends
        refine hnests.linkage hb hlicense (List.forall_mem_singleton.2 ?_) hopens
        rw [hsame]
        exact hsets w hw
      · obtain ⟨scope, hsome⟩ := Option.isSome_iff_exists.1 hscope
        refine hheader.linkage hb hlicense hsets ?_
        have hown : (Text.pieces '\n' (o.preamble.getD "")).filter isLinkage = [] :=
          List.filter_eq_nil_iff.2 fun line hline => Bool.eq_false_iff.1 (hpreamble line hline)
        have hpieces : Text.pieces '\n' t.preamble =
            platformLines scope ++ Text.pieces '\n' (o.preamble.getD "") := by
          have hall := pieces_preambleText htidy.scope
          rw [hsome] at hall
          exact hall
        rw [hpieces, List.filter_append, filter_platformLines, hown, List.append_nil]

/-! ### A header with a satellite -/

/-- An extension that requires a command and is extracted into `efx.h`. -/
def playExtension : ApiSet where
  kind := .extension
  name := "AL_EXT_PLAY"
  apis := ["al"]
  requirements := [{ names := ["alPlay"], comment := some "Playback", api := none }]
  annex := some "efx"
  doc := none

def playCommand : Command where
  name := "alPlay"
  scope := "AL"
  returnType := "void"
  parameters := []
  pointerName := "LPALPLAY"
  exportedOn := none
  noexcept := true
  doc := none
  deprecated := none

def playRegistry : Registry :=
  (({} : Registry).insert (.command playCommand)).insertSet playExtension

/-- The header of all extensions, with platform macros. -/
def playHeader : Output where
  path := ⟨"al.h"⟩
  registry := ⟨"al.xml"⟩
  apis := ["al"]
  extensions := true
  platformScope := some "AL"

def playConfig : Config where
  entries := [.output .header playHeader]

/-- A generator that has the registry already. -/
def playGenerator : Generator := Generator.withRegistry { timestamp := "T" } ⟨"al.xml"⟩ playRegistry

theorem follows_playConfig {run : Run} {e : Config.Entry}
    (h : playGenerator.Follows Source.empty playConfig run e) :
    e = .output .header playHeader ∧
      run.writings playHeader = [playExtension.writing playRegistry (Run.target .header playHeader)] := by
  obtain ⟨g₁, w₁, before, after, hload, hentries, hbefore⟩ := h
  have hg : playGenerator.load Source.empty playConfig.registries = (.ok (), playGenerator, []) := rfl
  rw [hg] at hload
  cases hload
  cases before with
  | nil =>
    cases hentries
    cases hbefore
    exact ⟨rfl, rfl⟩
  | cons first before => simp [playConfig] at hentries

theorem items_play :
    (playExtension.writing playRegistry (Run.target .header playHeader)).items = [
      .block ⟨.command playCommand, none,
        ["typedef void (AL_APIENTRY *LPALPLAY)(void) AL_API_NOEXCEPT17;"]⟩,
      .blank, .openPrototypes "AL", .comment "Playback",
      .block ⟨.command playCommand, none, ["AL_API void AL_APIENTRY alPlay(void) AL_API_NOEXCEPT;"]⟩,
      .blank, .closePrototypes "AL"] := by
  decide

theorem tidy_play :
    (playExtension.writing playRegistry (Run.target .header playHeader)).Tidy where
  name := by decide
  annex := by decide
  headers := by decide
  scopes := by
    rw [items_play]
    decide
  doc := by decide
  comments text h := by
    rw [items_play] at h
    simp only [List.mem_cons, Item.comment.injEq, reduceCtorEq, false_or, or_false,
      List.not_mem_nil] at h
    rw [h]
    decide
  live block h _ := by
    rw [items_play] at h
    simp only [List.mem_cons, Item.block.injEq, reduceCtorEq, false_or, or_false,
      List.not_mem_nil] at h
    rcases h with rfl | rfl <;> decide

/-- The conditionals of the header and of its satellite nest, and each has an `extern "C"` block. -/
theorem play_conditionals_nest :
    ∃ files g', playGenerator.stage Source.empty playConfig = (.ok files, g', []) ∧
      files.map (·.path.text) = ["efx.h", "al.h"] ∧
      ∀ f ∈ files, Nested (Text.pieces '\n' f.text) ∧
        (Text.pieces '\n' f.text).filter isLinkage =
          ["extern \"C\" \x7b", "\x7d /* extern \"C\" */"] := by
  obtain ⟨files, g', h, hpaths⟩ : ∃ files g',
      playGenerator.stage Source.empty playConfig = (.ok files, g', []) ∧
        files.map (·.path.text) = ["efx.h", "al.h"] := ⟨_, _, rfl, rfl⟩
  refine ⟨files, g', h, hpaths, ?_⟩
  obtain ⟨hstaged, hheaders⟩ := conditionals_nest h
    (fun o ho => by
      cases List.mem_singleton.1 ho
      exact ⟨⟨by decide, by decide, rfl⟩, ⟨rfl, by decide, by decide, by decide, by decide⟩⟩)
    (fun run o hfollows => by
      obtain ⟨ho, hwritings⟩ := follows_playConfig hfollows
      cases ho
      rw [hwritings]
      exact List.forall_mem_singleton.2 tidy_play)
  intro f hf
  obtain ⟨run, e, hfollows, staged, hmem, -, htext⟩ := hstaged f hf
  obtain ⟨rfl, hwritings⟩ := follows_playConfig hfollows
  obtain ⟨⟨t', ws, -, -, -, hnests⟩, hlinkage⟩ := hheaders run playHeader hfollows staged hmem
  rw [← htext]
  refine ⟨hnests.nested, hlinkage ?_ (.inr rfl)⟩
  rw [Run.foreign, hwritings, List.flatMap_singleton, Writing.foreign, items_play]
  decide

end ApiHeaders
