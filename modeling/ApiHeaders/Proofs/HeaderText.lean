import ApiHeaders.Proofs.Reached
import ApiHeaders.Proofs.Selection

/-!
# The text of a header and of its satellites

The files that are staged for a header make up a cluster.

## Main definitions

* `cluster` is the cluster of a header whose sets are given, `Writing.chapter` is a set of it.

## Main statements

* `Target.pieces_file` gives the lines of a header.
* `lines_cluster` and `satelliteLines_cluster` give the lines of the files of a cluster.
-/

namespace ApiHeaders

open Text (physicalLines)

namespace Boilerplate

/-- The lines of the license. -/
def licenseLines (b : Boilerplate) : List String := (Text.pieces '\n' b.licenseBlock).dropLast

theorem pieces_licenseBlock_append (b : Boilerplate) (rest : String) :
    Text.pieces '\n' (b.licenseBlock ++ rest) = b.licenseLines ++ Text.pieces '\n' rest := by
  have hends : b.licenseBlock = "" ∨ ∃ x, b.licenseBlock = x ++ "\n" := by
    unfold licenseBlock
    split
    · next h =>
      rcases Bool.or_eq_true_iff.1 h with h | h
      · exact .inl (of_decide_eq_true h)
      · obtain ⟨x, hx⟩ := List.getLast?_eq_some_iff.1 (of_decide_eq_true h)
        refine .inr ⟨String.ofList x, String.toList_inj.1 ?_⟩
        simp [hx]
    · exact .inr ⟨b.license, rfl⟩
  unfold licenseLines
  rcases hends with h | ⟨x, h⟩
  · rw [h, String.empty_append]
    rfl
  · have hx := Text.pieces_append_break x ""
    rw [String.append_empty] at hx
    have hempty : Text.pieces '\n' "" = [""] := rfl
    rw [h, Text.pieces_append_break, hx, hempty, List.dropLast_concat]

/-- What a header has after its guard. -/
def opening (b : Boilerplate) : List String :=
  "" :: physicalLines b.banner ++ ["", "/* NOLINTBEGIN */"]

end Boilerplate

/-- What a header has before the end of its guard. -/
def closingLines : List String :=
  ["#ifdef __cplusplus", "\x7d /* extern \"C\" */", "#endif", "/* NOLINTEND */", ""]

theorem physicalLines_fence {guard : String} (h : '\n' ∉ guard.toList) (lines : List String) :
    physicalLines (fence guard lines) = fence guard (physicalLines lines) := by
  have hopen : Text.pieces '\n' ("#ifndef " ++ guard) = ["#ifndef " ++ guard] :=
    Text.pieces_of_not_mem (by simp [h])
  have hclose : Text.pieces '\n' ("#endif /* " ++ guard ++ " */") =
      ["#endif /* " ++ guard ++ " */"] := Text.pieces_of_not_mem (by simp [h])
  have hnil : physicalLines [] = [] := rfl
  simp only [fence, Text.physicalLines_cons, Text.physicalLines_append, hopen, hclose, hnil,
    List.singleton_append, List.append_nil]

/-- The lines of a header. -/
theorem Target.pieces_file {t : Target} {b : Boilerplate} (hform : t.form = .header)
    (hguard : '\n' ∉ (b.guard t.path.fileName).toList) (content : List String) :
    Text.pieces '\n' (t.file b content) = b.licenseLines ++
      (fence (b.guard t.path.fileName) (("#define " ++ b.guard t.path.fileName) ::
        (b.opening ++ (Text.pieces '\n' t.preamble
          ++ (Text.pieces '\n' (Text.unlines content) ++ closingLines)))) ++ [""]) := by
  have hdefine : Text.pieces '\n' ("#define " ++ b.guard t.path.fileName) =
      ["#define " ++ b.guard t.path.fileName] :=
    Text.pieces_of_not_mem (by simp [hguard])
  have hclosing : physicalLines closingLines = closingLines := rfl
  have hblank : Text.pieces '\n' "" = [""] := rfl
  have hlint : Text.pieces '\n' "/* NOLINTBEGIN */" = ["/* NOLINTBEGIN */"] := rfl
  have hlines : t.headerLines b (Text.unlines content) =
      fence (b.guard t.path.fileName) (("#define " ++ b.guard t.path.fileName) ::
        ("" :: (b.banner ++ "" :: "/* NOLINTBEGIN */" :: t.preamble :: Text.unlines content ::
          closingLines))) := by
    simp [headerLines, fence, closingLines]
  rw [file, hform, Boilerplate.pieces_licenseBlock_append]
  simp only [hlines, Text.pieces_join, physicalLines_fence hguard, Text.physicalLines_append,
    Text.physicalLines_cons, hdefine, hblank, hlint, hclosing]
  simp [Boilerplate.opening]

/-! ### The cluster of a header -/

namespace Writing

/-- The lines by which a satellite includes what its set needs. -/
def includeLines (w : Writing) : List String :=
  physicalLines ((w.set.headers w.registry).map fun h => "#include <" ++ h ++ ">")

/-- A set as it stands in the cluster of a header. -/
def chapter (w : Writing) (b : Boilerplate) (t : Target) : Chapter where
  name := w.set.name
  doc := physicalLines (Text.lines (Doc.render w.registry.groups none w.set.doc))
  body := physicalLines (w.items.flatMap Item.lines)
  satellite := (w.set.annexFrom? t).map fun _ => {
    file := w.target.path.fileName
    guard := b.guard w.target.path.fileName
    front := b.opening ++ w.includeLines }

end Writing

/-- A header with the satellites of its sets. -/
def cluster (b : Boilerplate) (t : Target) (ws : List Writing) : Cluster where
  file := t.path.fileName
  guard := b.guard t.path.fileName
  license := b.licenseLines
  front := b.opening ++ Text.pieces '\n' t.preamble
  chapters := ws.map (·.chapter b t)
  back := (if ws = [] then [""] else []) ++ closingLines

variable {b : Boilerplate} {t : Target} {w : Writing} {ws : List Writing}

namespace Writing

theorem physicalLines_around (b : Boilerplate) (t : Target) (hname : '\n' ∉ w.set.name.toList)
    (lines : List String) :
    physicalLines (w.set.opening w.registry true ++ lines ++ w.set.closing true) =
      (w.chapter b t).around (physicalLines lines) := by
  have hdefine : Text.pieces '\n' ("#define " ++ w.set.name ++ " 1") =
      ["#define " ++ w.set.name ++ " 1"] :=
    Text.pieces_of_not_mem (by simp [hname])
  have hblank : physicalLines [""] = [""] := rfl
  have hlines : w.set.opening w.registry true ++ lines ++ w.set.closing true =
      fence w.set.name (("#define " ++ w.set.name ++ " 1") ::
        (Text.lines (Doc.render w.registry.groups none w.set.doc) ++ lines)) ++ [""] := by
    simp [ApiSet.opening, ApiSet.closing, fence]
  rw [hlines, Text.physicalLines_append, physicalLines_fence hname, Text.physicalLines_cons,
    hdefine, Text.physicalLines_append, hblank]
  rfl

/-- The lines of a set are those of its chapter. -/
theorem physicalLines_lines (b : Boilerplate) (t : Target) (hname : '\n' ∉ w.set.name.toList) :
    physicalLines w.lines = (w.chapter b t).around (w.chapter b t).body :=
  physicalLines_around b t hname (w.items.flatMap Item.lines)

theorem physicalLines_inHeader (b : Boilerplate) (hform : w.target.form = .header)
    (hname : '\n' ∉ w.set.name.toList) (hfile : '\n' ∉ w.target.path.fileName.toList) :
    physicalLines (w.inHeader t) = (w.chapter b t).inHeader := by
  cases ha : w.set.annexFrom? t with
  | none =>
    have hsatellite : (w.chapter b t).satellite = none := by simp [chapter, ha]
    rw [inHeader, ha, Chapter.inHeader, hsatellite]
    exact physicalLines_lines b t hname
  | some a =>
    have hsatellite : (w.chapter b t).satellite = some {
        file := w.target.path.fileName
        guard := b.guard w.target.path.fileName
        front := b.opening ++ w.includeLines } := by simp [chapter, ha]
    have hreference : physicalLines [w.target.reference] =
        ["#include \"" ++ w.target.path.fileName ++ "\""] := by
      rw [Target.reference, hform]
      exact Text.physicalLines_of_not_mem fun l hl => by
        rw [List.mem_singleton.1 hl]
        simp [hfile]
    rw [inHeader, ha, Chapter.inHeader, hsatellite]
    simp only [ApiSet.referenceLines, if_true]
    rw [physicalLines_around b t hname, hreference]

end Writing

theorem Writing.lines_ne_nil (w : Writing) : w.lines ≠ [] := by
  simp [lines, ApiSet.opening]

theorem Writing.inHeader_ne_nil (w : Writing) (t : Target) : w.inHeader t ≠ [] := by
  unfold inHeader
  split
  · exact w.lines_ne_nil
  · simp [ApiSet.referenceLines, ApiSet.opening]

/-- The lines of the header are those of its cluster. -/
theorem lines_cluster (hform : t.form = .header)
    (hguard : '\n' ∉ (b.guard t.path.fileName).toList)
    (hws : ∀ w ∈ ws, w.target.form = .header ∧ '\n' ∉ w.set.name.toList ∧
      '\n' ∉ w.target.path.fileName.toList) :
    Text.pieces '\n' (t.file b (ws.flatMap (·.inHeader t))) = (cluster b t ws).lines := by
  have hchapters : ∀ ws' ⊆ ws, physicalLines (ws'.flatMap (·.inHeader t)) =
      (ws'.map (·.chapter b t)).flatMap (·.inHeader) := by
    intro ws' hsub
    induction ws' with
    | nil => rfl
    | cons w ws' ih =>
      obtain ⟨hw, hname, hfile⟩ := hws w (hsub List.mem_cons_self)
      have hrest := ih fun v hv => hsub (List.mem_cons_of_mem _ hv)
      rw [List.flatMap_cons, Text.physicalLines_append, w.physicalLines_inHeader b hw hname hfile,
        hrest, List.map_cons, List.flatMap_cons]
  have hcontent : Text.pieces '\n' (Text.unlines (ws.flatMap (·.inHeader t))) =
      (ws.map (·.chapter b t)).flatMap (·.inHeader) ++ if ws = [] then [""] else [] := by
    cases hnil : ws with
    | nil => rfl
    | cons w ws' =>
      have hne : (w :: ws').flatMap (·.inHeader t) ≠ [] := by
        rw [List.flatMap_cons]
        exact List.append_ne_nil_of_left_ne_nil (w.inHeader_ne_nil t) _
      rw [Text.pieces_unlines hne, ← hnil, hchapters ws (List.Subset.refl _), hnil]
      exact (List.append_nil _).symm
  rw [Target.pieces_file hform hguard, hcontent]
  simp [Cluster.lines, Cluster.wrap, cluster]

theorem Target.pieces_satellitePreamble (hfile : '\n' ∉ t.path.fileName.toList) :
    Text.pieces '\n' t.satellitePreamble =
      ("#include \"" ++ t.path.fileName ++ "\"") :: linkageLines := by
  have hsplit : t.satellitePreamble = ("#include \"" ++ t.path.fileName ++ "\"") ++ "\n" ++
      "\n#ifdef __cplusplus\nextern \"C\" \x7b\n#endif\n" := by
    have hend : "\"\n" = "\"" ++ "\n" := rfl
    rw [satellitePreamble, hend, ← String.append_assoc]
  have hlinkage : Text.pieces '\n' "\n#ifdef __cplusplus\nextern \"C\" \x7b\n#endif\n" =
      linkageLines := rfl
  rw [hsplit, Text.pieces_append_break, hlinkage, Text.pieces_of_not_mem (by simp [hfile])]
  rfl

theorem Writing.pieces_preamble (hform : t.form = .header) {annex : String}
    (htarget : w.target = t.satellite annex (w.set.headers w.registry))
    (hfile : '\n' ∉ t.path.fileName.toList) :
    Text.pieces '\n' w.target.preamble =
      w.includeLines ++ ("#include \"" ++ t.path.fileName ++ "\"") :: linkageLines := by
  have hincludes : ((w.set.headers w.registry).map fun h => "#include <" ++ h ++ ">\n") =
      ((w.set.headers w.registry).map fun h => "#include <" ++ h ++ ">").map (· ++ "\n") := by
    rw [List.map_map]
    apply List.map_congr_left
    intro h _
    have hend : ">\n" = ">" ++ "\n" := rfl
    rw [hend, ← String.append_assoc]
    rfl
  have hpreamble : w.target.preamble =
      String.join ((w.set.headers w.registry).map fun h => "#include <" ++ h ++ ">\n")
        ++ t.satellitePreamble := by
    rw [htarget, Target.satellite, hform]
  rw [hpreamble, hincludes, Text.pieces_join_append, Target.pieces_satellitePreamble hfile]
  rfl

/-- The lines of a satellite are those of its cluster. -/
theorem satelliteLines_cluster (hform : t.form = .header) (hw : w ∈ ws) {annex : String}
    (hannex : w.set.annexFrom? t = some annex)
    (htarget : w.target = t.satellite annex (w.set.headers w.registry))
    (hguard : '\n' ∉ (b.guard w.target.path.fileName).toList)
    (hname : '\n' ∉ w.set.name.toList) (hfile : '\n' ∉ t.path.fileName.toList) {e : Satellite}
    (he : (w.chapter b t).satellite = some e) :
    Text.pieces '\n' (w.target.file b w.lines) =
      (cluster b t ws).satelliteLines (w.chapter b t) e := by
  have hne : ws ≠ [] := List.ne_nil_of_mem hw
  have hpreamble := w.pieces_preamble hform htarget hfile
  have hwform : w.target.form = .header := by
    rw [htarget]
    exact hform
  have hsatellite : e = {
      file := w.target.path.fileName
      guard := b.guard w.target.path.fileName
      front := b.opening ++ w.includeLines } := by
    simp only [Writing.chapter, hannex, Option.map_some] at he
    exact (Option.some.inj he).symm
  rw [Target.pieces_file hwform hguard, hpreamble, Text.pieces_unlines w.lines_ne_nil,
    w.physicalLines_lines b t hname, hsatellite]
  simp [Cluster.satelliteLines, Cluster.wrap, Cluster.before, cluster, hne]

end ApiHeaders
