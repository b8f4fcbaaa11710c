import ApiHeaders.Proofs.PlatformMacros
import ApiHeaders.Proofs.Readable

/-!
# What a header declares

A set that stands in a header is declared when the header is read. One that is extracted into a
satellite never is: the guard of the set is defined around the reference to the satellite already,
and the satellite has the same guard around the set. Reading the satellite alone is no way out, for
it starts with reading the header.

## Main statements

* `reached_iff_in_header` says which lines of the sets of a header are reached.
-/

namespace ApiHeaders

open Text (physicalLines)

variable {b : Boilerplate} {t : Target} {w : Writing} {ws : List Writing}

/-- The lines of a block stand one after the other in its set. -/
theorem Writing.getElem?_body {block : Block} (h : .block block ∈ w.items) :
    ∃ n, ∀ j < (physicalLines block.lines).length, n + j < (w.chapter b t).body.length ∧
      (w.chapter b t).body[n + j]? = (physicalLines block.lines)[j]? := by
  obtain ⟨xs, ys, hitems⟩ := List.append_of_mem h
  have hbody : (w.chapter b t).body = physicalLines (xs.flatMap Item.lines) ++
      (physicalLines block.lines ++ physicalLines (ys.flatMap Item.lines)) := by
    rw [chapter, hitems, List.flatMap_append, List.flatMap_cons, Text.physicalLines_append,
      Text.physicalLines_append]
    rfl
  refine ⟨(physicalLines (xs.flatMap Item.lines)).length, fun j hj => ⟨?_, ?_⟩⟩
  · rw [hbody, List.length_append, List.length_append]
    omega
  · exact Cluster.getElem?_middle hbody hj

/-- A header of a run that warns of no file that is generated again. The lines of its sets stand in
the header and its satellites, and wherever reading starts among these, the lines of a set are
reached exactly if the set is not extracted. -/
theorem reached_iff_in_header {g g' : Generator} {source : Source} {c : Config}
    {committed : List NamedFile} {warnings : List Warning} {o : Output}
    {before after : List Config.Entry} (h : g.stage source c = (.ok committed, g', warnings))
    (hagain : ∀ path, .generatedAgain path ∉ warnings)
    (hentries : c.entries = before ++ .output .header o :: after) :
    ∃ g₁ w₁ run₁ r names,
      g.load source c.registries = (.ok (), g₁, w₁) ∧
      Run.entries { registries := g₁.registries, warnings := w₁ } c g₁.timestamp before =
        (.ok (), run₁) ∧
      run₁.registries.get? o.registry.components = some r ∧ select r o = .ok names ∧
      let t := Run.target .header o
      let b := Run.boilerplate c g₁.timestamp o
      let ws := r.selection t names
      let folder := directory committed t.path
      ∀ files, Readable b t ws files folder →
        List.Forall₂ (fun name w => w.registry.set? name = some w.set) names ws ∧
        ∀ xs w ys, ws = xs ++ w :: ys → ∀ p ∈ Pass.order w.set.kind, ∀ name block,
          (name, block) ∈ w.set.emissions w.registry w.target p →
          ∃ n, ∀ j < (physicalLines block.lines).length,
            let place := (cluster b t ws).place (xs.map (·.chapter b t)) (w.chapter b t) (n + j)
            (∃ text, folder place.file = some text ∧
              (Text.pieces '\n' text)[place.line]? = (physicalLines block.lines)[j]?) ∧
            ∀ holds depth start macros, start ∈ (cluster b t ws).members →
              (∀ m ∈ (cluster b t ws).guards ++ prototypeMacros ws
                ++ (cluster b t ws).satelliteGuards, m ∉ macros) →
              (place ∈ (readFile holds folder (depth + 2) start macros).1 ↔
                w.set.annexFrom? t = none) := by
  obtain ⟨g₁, w₁, run', hload, hrun, rfl, rfl⟩ := Generator.stage_eq_ok h
  rw [hentries] at hrun
  obtain ⟨run₁, r, names, hbefore, hr, hselect, hheader⟩ := Run.entries_header hrun hagain
  refine ⟨g₁, w₁, run₁, r, names, hload, hbefore, hr, hselect, ?_⟩
  intro t b ws folder files hreadable
  obtain ⟨hnames, htext, hdone⟩ := hheader fun w hw annex => hreadable.annexFrom?_satellite hw
  have hl : run'.ledger.HasHeader b t ws := {
    keyed := (Run.progress_entries hrun hagain).keyed nofun
    form := rfl
    target := fun _ => Registry.target_of_mem_selection
    text := htext
    done := hdone }
  have hlegible := Readable.legible (l := run'.ledger) hreadable hl
  refine ⟨hnames, ?_⟩
  intro xs w ys hws p hp name block hblock
  have hw : w ∈ ws := by simp [hws]
  have hitem : .block block ∈ w.items := ApiSet.block_mem_items (hdone w hw).1 hp hblock
  obtain ⟨n, hbody⟩ := Writing.getElem?_body (b := b) (t := t) hitem
  have hchapters : (cluster b t ws).chapters =
      xs.map (·.chapter b t) ++ w.chapter b t :: ys.map (·.chapter b t) := by
    rw [cluster, hws, List.map_append, List.map_cons]
  have hplain : (w.chapter b t).satellite = none ↔ w.set.annexFrom? t = none := by
    rw [Writing.chapter, Option.map_eq_none_iff]
  refine ⟨n, ?_⟩
  intro j hj
  obtain ⟨hlt, hline⟩ := hbody j hj
  intro place
  refine ⟨?_, ?_⟩
  · rw [← hline]
    exact hlegible.getElem?_place hchapters hlt
  · intro holds depth start macros hstart hfresh
    rw [← hplain]
    exact hlegible.reached_iff holds depth hfresh hstart hchapters hlt

/-! ### A declaration that is not reached -/

/-- The constant that a set requires. -/
def constantN : Enumerant where
  name := "AL_N"
  value := "1"
  property := none
  groups := []
  doc := none
  deprecated := none

/-- An extension that requires the constant and is extracted into `efx.h`. -/
def extractedExtension : ApiSet where
  kind := .extension
  name := "AL_EXT_X"
  apis := ["al"]
  requirements := [{ names := ["AL_N"], api := none }]
  annex := some "efx"
  doc := none

def extractedConstant : Registry :=
  (({} : Registry).insert (.enumerant constantN)).insertSet extractedExtension

/-- The header of all extensions. -/
def extensionHeader : Output where
  path := ⟨"al.h"⟩
  registry := ⟨"al.xml"⟩
  apis := ["al"]
  extensions := true
  platformScope := some "AL"

def extensionConfig : Config where
  entries := [.output .header extensionHeader]

/-- A generator that has the registry already. -/
def extensionGenerator : Generator :=
  Generator.withRegistry { timestamp := "T" } ⟨"al.xml"⟩ extractedConstant

theorem readable_extensionHeader (folder : String → Option String) :
    let t := Run.target .header extensionHeader
    Readable (Run.boilerplate extensionConfig "T" extensionHeader) t
      (extractedConstant.selection t ["AL_EXT_X"]) [] folder := by
  intro t
  let w : Writing :=
    ⟨extractedExtension, extractedExtension.writtenInto extractedConstant t, extractedConstant⟩
  have hws : extractedConstant.selection t ["AL_EXT_X"] = [w] := rfl
  have hefx : w.set.annexFrom? t = some "efx" := by decide
  rw [hws]
  exact {
    named := ⟨"al.h", by decide⟩
    annexes := List.forall_mem_singleton.2 fun annex hannex => by
      cases hefx.symm.trans hannex
      exact ⟨by decide, by decide⟩
    fileNames := by decide
    words := by decide
    nodup := by decide
    disjoint := by decide
    license := ⟨rfl, by decide⟩
    banner := ⟨rfl, by decide⟩
    preamble := tame_preambleText (by decide) (by decide) ⟨rfl, by decide⟩
    headers := List.forall_mem_singleton.2 ⟨rfl, by decide⟩
    docs := List.forall_mem_singleton.2 ⟨rfl, by decide⟩
    texts := List.forall_mem_singleton.2 (by decide)
    included := nofun }

/-- The declaration of the extension is written, but neither its header nor its satellite has it
for somebody who reads them. -/
theorem extracted_constant_unreached :
    ∃ files g', extensionGenerator.stage Source.empty extensionConfig = (.ok files, g', []) ∧
      let folder := directory files ⟨"al.h"⟩
      ∃ place text, folder place.file = some text ∧
        (Text.pieces '\n' text)[place.line]? =
          some "#define AL_N                                     1" ∧
        ∀ holds depth, ∀ start ∈ ["al.h", "efx.h"],
          place ∉ (readFile holds folder (depth + 2) start []).1 := by
  obtain ⟨files, g', h⟩ : ∃ files g',
      extensionGenerator.stage Source.empty extensionConfig = (.ok files, g', []) :=
    ⟨_, _, rfl⟩
  refine ⟨files, g', h, ?_⟩
  have hentries : extensionConfig.entries = [] ++ .output .header extensionHeader :: [] := rfl
  obtain ⟨g₁, w₁, run₁, r, names, hload, hbefore, hr, hselect, hall⟩ :=
    reached_iff_in_header h (fun _ => List.not_mem_nil) hentries
  obtain ⟨rfl, rfl⟩ : g₁ = extensionGenerator ∧ w₁ = [] := by
    have hg : extensionGenerator.load Source.empty extensionConfig.registries =
        (.ok (), extensionGenerator, []) := rfl
    rw [hg] at hload
    cases hload
    exact ⟨rfl, rfl⟩
  cases hbefore
  obtain rfl : extractedConstant = r := Option.some.inj hr
  obtain rfl : ["AL_EXT_X"] = names := Except.ok.inj hselect
  intro folder
  obtain ⟨-, hreached⟩ := hall [] (readable_extensionHeader folder)
  let t := Run.target .header extensionHeader
  let w : Writing :=
    ⟨extractedExtension, extractedExtension.writtenInto extractedConstant t, extractedConstant⟩
  let block : Block :=
    ⟨.enumerant constantN, none, ["#define AL_N                                     1"]⟩
  have hmembers : (cluster (Run.boilerplate extensionConfig "T" extensionHeader) t [w]).members =
      ["al.h", "efx.h"] := by decide
  have hblock : ("AL_N", block) ∈ w.set.emissions w.registry w.target .types := by decide
  obtain ⟨n, hlines⟩ := hreached [] w [] rfl .types List.mem_cons_self "AL_N" block hblock
  obtain ⟨⟨text, htext, hline⟩, hread⟩ := hlines 0 (by decide)
  refine ⟨_, text, htext, hline, ?_⟩
  intro holds depth start hstart hmem
  rw [← hmembers] at hstart
  have hnone := (hread holds depth start [] hstart fun _ _ => List.not_mem_nil).1 hmem
  exact absurd hnone (by decide)

end ApiHeaders
