import ApiHeaders.File
import ApiHeaders.Proofs.Pieces

/-!
# Texts without line breaks

Whatever is made of the names of a run holds no line break if the names do not: the file of a path,
an include guard, the path of a satellite. A text that was cut into lines holds none either.

## Main statements

* `Text.physicalLines_lines` says that the lines of a text hold no line break.
* `Boilerplate.break_not_mem_guard` and `Target.break_not_mem_annexPath` are about names.
-/

namespace ApiHeaders

/-! ### Lines of a text -/

namespace Text

theorem mem_intercalate_of_mem {sep c : Char} {pieces : List (List Char)} {piece : List Char}
    (hpiece : piece ∈ pieces) (hc : c ∈ piece) : c ∈ [sep].intercalate pieces := by
  induction pieces with
  | nil => cases hpiece
  | cons first rest ih =>
    by_cases hnil : rest = []
    · rw [hnil] at hpiece ⊢
      rwa [List.intercalate_singleton, ← List.mem_singleton.1 hpiece]
    · rw [List.intercalate_cons_of_ne_nil hnil]
      rcases List.mem_cons.1 hpiece with rfl | hpiece
      · exact List.mem_append_left _ (List.mem_append_left _ hc)
      · exact List.mem_append_right _ (ih hpiece)

theorem subset_of_mem_splitOn {sep : Char} {cs piece : List Char} (h : piece ∈ splitOn sep cs) :
    piece ⊆ cs := by
  intro c hc
  have hmem : c ∈ [sep].intercalate (splitOn sep cs) := mem_intercalate_of_mem h hc
  rwa [intercalate_splitOn] at hmem

theorem mem_intercalate {sep c : Char} {pieces : List (List Char)}
    (h : c ∈ [sep].intercalate pieces) : c = sep ∨ ∃ piece ∈ pieces, c ∈ piece := by
  induction pieces with
  | nil => cases h
  | cons piece pieces ih =>
    by_cases hnil : pieces = []
    · rw [hnil, List.intercalate_singleton] at h
      exact .inr ⟨piece, List.mem_cons_self, h⟩
    · rw [List.intercalate_cons_of_ne_nil hnil, List.append_assoc, List.mem_append,
        List.singleton_append, List.mem_cons] at h
      rcases h with h | h | h
      · exact .inr ⟨piece, List.mem_cons_self, h⟩
      · exact .inl h
      · rcases ih h with h | ⟨p, hp, h⟩
        · exact .inl h
        · exact .inr ⟨p, List.mem_cons_of_mem _ hp, h⟩

theorem break_not_mem_of_mem_pieces {s line : String} (h : line ∈ pieces '\n' s) :
    '\n' ∉ line.toList := by
  obtain ⟨piece, hpiece, rfl⟩ := List.mem_map.1 h
  rw [String.toList_ofList]
  exact not_mem_of_mem_splitOn hpiece

theorem dropReturn_subset (cs : List Char) : dropReturn cs ⊆ cs := by
  unfold dropReturn
  cases h : stripEnd? ['\r'] cs with
  | none => exact List.Subset.refl _
  | some rest =>
    rw [stripEnd?_eq_some_iff.1 h]
    exact List.subset_append_left ..

theorem break_not_mem_of_mem_lines {s line : String} (h : line ∈ lines s) :
    '\n' ∉ line.toList := by
  simp only [lines, List.map_append, List.map_map, List.mem_append, List.mem_map,
    Function.comp_apply, List.mem_filter, Option.mem_toList] at h
  rcases h with ⟨piece, hpiece, rfl⟩ | ⟨piece, ⟨hpiece, -⟩, rfl⟩
  · rw [String.toList_ofList]
    exact fun hmem =>
      not_mem_of_mem_splitOn (List.dropLast_subset _ hpiece) (dropReturn_subset piece hmem)
  · rw [String.toList_ofList]
    exact not_mem_of_mem_splitOn (List.mem_of_getLast? hpiece)

/-- The lines of a text hold no line break. -/
@[simp] theorem physicalLines_lines (s : String) : physicalLines (lines s) = lines s :=
  physicalLines_of_not_mem fun _ => break_not_mem_of_mem_lines

/-! ### Letter case -/

theorem ofNat_ne_of_lt {d : Char} {n : Nat} (hd : 0 < d.toNat) (h : d.toNat < n) :
    Char.ofNat n ≠ d := by
  intro heq
  have hn := congrArg Char.toNat heq
  by_cases hvalid : n.isValidChar
  · have hchar : Char.ofNat n = Char.ofNatAux n hvalid := dif_pos hvalid
    rw [hchar] at hn
    exact Nat.ne_of_gt h hn
  · have hchar : Char.ofNat n = Char.ofNatAux 0 (by decide) := dif_neg hvalid
    rw [hchar] at hn
    exact Nat.ne_of_lt hd hn

/-- A mapping does not bring in a character that lies before all of its images. -/
theorem not_mem_mapCase {expansions : List (Nat × List Nat)} {runs : List CaseRun} {c d : Char}
    (hd : 0 < d.toNat) (hexpansions : ∀ e ∈ expansions, d ∉ e.2.map Char.ofNat)
    (hruns : ∀ r ∈ runs, d.toNat < r.first + r.shift) (hc : c ≠ d) :
    d ∉ mapCase expansions runs c := by
  unfold mapCase
  split
  · next image h =>
    obtain ⟨before, after, hmem, -⟩ := List.lookup_eq_some_iff.1 h
    exact hexpansions (c.toNat, image) (by rw [hmem]; simp)
  · split
    · next image h =>
      obtain ⟨r, hr, himage⟩ := List.exists_of_findSome?_eq_some h
      have hlow := hruns r hr
      simp only [CaseRun.image?, Option.ite_none_right_eq_some, Option.some.injEq] at himage
      obtain ⟨⟨hfirst, -, -⟩, rfl⟩ := himage
      rw [List.mem_singleton]
      refine (ofNat_ne_of_lt hd ?_).symm
      omega
    · simpa using Ne.symm hc

theorem break_not_mem_upperChar {c : Char} (hc : c ≠ '\n') : '\n' ∉ upperChar c :=
  not_mem_mapCase (by decide) (by decide +kernel) (by decide +kernel) hc

theorem break_not_mem_upper {s : String} (h : '\n' ∉ s.toList) : '\n' ∉ (upper s).toList := by
  rw [upper, String.toList_ofList]
  intro hmem
  obtain ⟨c, hc, hmem⟩ := List.mem_flatMap.1 hmem
  exact break_not_mem_upperChar (fun heq => h (heq ▸ hc)) hmem

theorem break_not_mem_replaceChar {s written : String} (c : Char) (hs : '\n' ∉ s.toList)
    (hwritten : '\n' ∉ written.toList) : '\n' ∉ (replaceChar c written s).toList := by
  rw [replaceChar, escapeWith, String.toList_ofList]
  intro hmem
  obtain ⟨d, hd, hmem⟩ := List.mem_flatMap.1 hmem
  split at hmem
  · exact hwritten hmem
  · rw [String.toList_singleton, List.mem_singleton] at hmem
    exact hs (hmem ▸ hd)

end Text

/-! ### Paths -/

namespace Path

variable {p : Path}

theorem break_not_mem_decompose (h : '\n' ∉ p.text.toList) :
    ∀ piece ∈ p.decompose.2, '\n' ∉ piece := by
  have hsplit {cs : List Char} (hcs : '\n' ∉ cs) : ∀ piece ∈ Text.splitOn '/' cs, '\n' ∉ piece :=
    fun piece hpiece hmem => hcs (Text.subset_of_mem_splitOn hpiece hmem)
  unfold decompose
  split
  · next cs hcs => exact hsplit fun hmem => h (by simp [hcs, hmem])
  · nofun
  · next cs hcs =>
    intro piece hpiece
    rcases List.mem_cons.1 hpiece with rfl | hpiece
    · exact List.not_mem_nil
    · exact hsplit (fun hmem => h (by simp [hcs, hmem])) piece hpiece
  · exact hsplit h

theorem break_not_mem_fileName (h : '\n' ∉ p.text.toList) : '\n' ∉ p.fileName.toList := by
  unfold fileName fileName?
  split
  · next name hlast =>
    have hmem := List.mem_of_getLast? hlast
    simp only [components] at hmem
    rcases List.mem_append.1 hmem with hmem | hmem
    · cases hanchor : p.decompose.1 <;> simp [hanchor, Anchor.components] at hmem
    · obtain ⟨piece, hpiece, heq⟩ := List.mem_map.1 hmem
      unfold Component.ofPiece at heq
      split at heq
      · cases heq
      · cases heq
        rw [Option.getD_some, String.toList_ofList]
        exact break_not_mem_decompose h piece (List.mem_filter.1 hpiece).1
  · exact List.not_mem_nil

theorem break_not_mem_extension {extension : String} (h : '\n' ∉ p.fileName.toList)
    (hextension : p.extension? = some extension) : '\n' ∉ extension.toList := by
  unfold extension? at hextension
  obtain ⟨name, hname, hcut⟩ := Option.bind_eq_some_iff.1 hextension
  rw [fileName, hname, Option.getD_some] at h
  unfold cutExtension at hcut
  split at hcut
  · cases hcut
  · cases hcut
  · next stem cs _ hbreak =>
    cases hcut
    obtain ⟨hcs, -⟩ := Text.eq_of_breakAtLast? hbreak
    rw [String.toList_ofList]
    intro hmem
    exact h (by rw [hcs]; simp [hmem])

theorem break_not_mem_recompose (a : Anchor) {pieces : List (List Char)}
    (h : ∀ piece ∈ pieces, '\n' ∉ piece) : '\n' ∉ (recompose a pieces).text.toList := by
  rw [recompose, String.toList_append, String.toList_ofList]
  intro hmem
  rcases List.mem_append.1 hmem with hmem | hmem
  · cases a <;> simp [Anchor.text] at hmem
  · rcases Text.mem_intercalate hmem with hmem | ⟨piece, hpiece, hmem⟩
    · cases hmem
    · exact h piece hpiece hmem

theorem dropIdleEnd_subset (pieces : List (List Char)) : dropIdleEnd pieces ⊆ pieces := by
  intro piece h
  exact List.mem_reverse.1 (List.dropWhile_subset _ (List.mem_reverse.1 h))

theorem break_not_mem_parent {directory : Path} (h : '\n' ∉ p.text.toList)
    (hparent : p.parent? = some directory) : '\n' ∉ directory.text.toList := by
  have hpieces := break_not_mem_decompose h
  unfold parent? at hparent
  simp only at hparent
  split at hparent
  · split at hparent
    · cases hparent
      exact List.not_mem_nil
    · cases hparent
  · cases hparent
    apply break_not_mem_recompose
    intro piece hpiece
    have hmem := List.dropLast_subset _ (dropIdleEnd_subset _ hpiece)
    exact hpieces piece (dropIdleEnd_subset _ hmem)

theorem break_not_mem_join {q : Path} (hp : '\n' ∉ p.text.toList) (hq : '\n' ∉ q.text.toList) :
    '\n' ∉ (p.join q).text.toList := by
  unfold join
  split
  · exact hq
  · split <;> simp [hp, hq]

end Path

theorem Target.break_not_mem_annexPath {t : Target} {annex : String}
    (ht : '\n' ∉ t.path.text.toList) (hannex : '\n' ∉ annex.toList) :
    '\n' ∉ (t.annexPath annex).text.toList := by
  have hname : '\n' ∉ (annex ++ (t.path.extension?.map ("." ++ ·)).getD "").toList := by
    cases hextension : t.path.extension? with
    | none => simpa using hannex
    | some extension =>
      have hend := Path.break_not_mem_extension (Path.break_not_mem_fileName ht) hextension
      simp [hannex, hend]
  unfold annexPath
  split
  · next directory hparent => exact Path.break_not_mem_join (Path.break_not_mem_parent ht hparent) hname
  · exact hname

theorem Boilerplate.break_not_mem_guard {b : Boilerplate} {fileName : String}
    (hb : '\n' ∉ b.guardPrefix.toList) (hname : '\n' ∉ fileName.toList) :
    '\n' ∉ (b.guard fileName).toList := by
  have hupper : '\n' ∉ (Text.replaceChar '.' "_" (Text.upper fileName)).toList :=
    Text.break_not_mem_replaceChar '.' (Text.break_not_mem_upper hname) (by decide)
  simp [guard, hb, hupper]

end ApiHeaders
