import ApiHeaders.Proofs.Pieces
import ApiHeaders.Target

/-!
# Files next to one another

The satellites of a target stand in its directory.

## Main statements

* `Path.components_neighbour` gives the place of a file next to another one.
* `Target.components_annexPath` gives the place of a satellite, `Target.isAnnex_satellite` its stem.
-/

namespace ApiHeaders

namespace Path

/-- The pieces up to the last step. -/
theorem dropIdleEnd_eq (pieces : List (List Char)) :
    ∃ idle, pieces = dropIdleEnd pieces ++ idle ∧ (∀ piece ∈ idle, isIdle piece) ∧
      ∀ last ∈ (dropIdleEnd pieces).getLast?, isIdle last = false := by
  refine ⟨(pieces.reverse.takeWhile isIdle).reverse, ?_, ?_, ?_⟩
  · rw [dropIdleEnd, ← List.reverse_append, List.takeWhile_append_dropWhile, List.reverse_reverse]
  · intro piece h
    exact List.all_eq_true.1 List.all_takeWhile piece (List.mem_reverse.1 h)
  · intro last h
    rw [dropIdleEnd, List.getLast?_reverse] at h
    have hfirst := List.head?_dropWhile_not isIdle pieces.reverse
    rw [h] at hfirst
    simpa using hfirst

theorem filter_dropIdleEnd (pieces : List (List Char)) :
    (dropIdleEnd pieces).filter (!isIdle ·) = pieces.filter (!isIdle ·) := by
  obtain ⟨idle, heq, hidle, -⟩ := dropIdleEnd_eq pieces
  have hnil : idle.filter (!isIdle ·) = [] :=
    List.filter_eq_nil_iff.2 fun piece h => by simp [hidle piece h]
  have hfilter := congrArg (List.filter (!isIdle ·)) heq
  rw [List.filter_append, hnil, List.append_nil] at hfilter
  exact hfilter.symm

/-- How pieces after an anchor can start. -/
def Anchor.Starts : Anchor → List (List Char) → Prop
  | root, _ => True
  | here, pieces => ∀ first ∈ pieces.head?, first = []
  | none, pieces => ∀ first ∈ pieces.head?, isIdle first = false

theorem slash_not_mem_decompose (p : Path) : ∀ piece ∈ p.decompose.2, '/' ∉ piece := by
  unfold decompose
  split
  · exact fun piece h => Text.not_mem_of_mem_splitOn h
  · exact nofun
  · intro piece h
    rcases List.mem_cons.1 h with rfl | h
    · exact List.not_mem_nil
    · exact Text.not_mem_of_mem_splitOn h
  · exact fun piece h => Text.not_mem_of_mem_splitOn h

theorem starts_decompose {p : Path} (h : ∃ piece ∈ p.decompose.2, isIdle piece = false) :
    p.decompose.1.Starts p.decompose.2 := by
  unfold decompose at h ⊢
  split at h
  · exact trivial
  · exact nofun
  · intro first hfirst
    exact (Option.some.inj hfirst).symm
  · next hroot hhere hdot =>
    intro first hfirst
    have hcs : ['/'].intercalate (Text.splitOn '/' p.text.toList) = p.text.toList :=
      Text.intercalate_splitOn p.text.toList
    obtain ⟨rest, hsplit⟩ := List.head?_eq_some_iff.1 hfirst
    by_contra hidle
    dsimp only at hsplit h
    rw [hsplit] at hcs h
    simp only [isIdle, Bool.or_eq_false_iff, decide_eq_false_iff_not, not_and_or, not_not] at hidle
    cases rest with
    | nil =>
      obtain ⟨piece, hpiece, hnot⟩ := h
      rw [List.mem_singleton.1 hpiece] at hnot
      rcases hidle with rfl | rfl <;> simp [isIdle] at hnot
    | cons next rest =>
      rw [List.intercalate_cons_cons] at hcs
      rcases hidle with rfl | rfl
      · exact hroot _ hcs.symm
      · exact hdot _ hcs.symm

/-- A path that starts with a step has no anchor. -/
theorem decompose_eq_none {p : Path} {first : List Char} {rest : List (List Char)}
    (hp : Text.splitOn '/' p.text.toList = first :: rest) (hidle : isIdle first = false) :
    p.decompose = (.none, first :: rest) := by
  unfold decompose
  split
  · next heq =>
    rw [heq, Text.splitOn, if_pos rfl] at hp
    obtain ⟨rfl, -⟩ := List.cons.inj hp
    cases hidle
  · next heq =>
    rw [heq] at hp
    obtain ⟨rfl, -⟩ := List.cons.inj hp
    cases hidle
  · next heq =>
    rw [heq, ← List.singleton_append, Text.splitOn_append_cons, Text.splitOn_of_not_mem] at hp
    · obtain ⟨rfl, -⟩ := List.cons.inj hp
      cases hidle
    · decide
  · exact congrArg (Prod.mk Anchor.none) hp

theorem decompose_recompose {a : Anchor} {first : List Char} {rest : List (List Char)}
    (hslash : ∀ piece ∈ first :: rest, '/' ∉ piece) (hstarts : a.Starts (first :: rest))
    (hrest : rest ≠ []) : (recompose a (first :: rest)).decompose = (a, first :: rest) := by
  have hcut := Text.splitOn_intercalate (List.cons_ne_nil first rest) hslash
  have htext : (recompose a (first :: rest)).text.toList =
      a.text.toList ++ ['/'].intercalate (first :: rest) := by
    rw [recompose, String.toList_append, String.toList_ofList]
  cases a with
  | root =>
    have hroot : (recompose .root (first :: rest)).text.toList =
        '/' :: ['/'].intercalate (first :: rest) := htext
    rw [decompose, hroot]
    simp only [hcut]
  | here =>
    have hfirst : first = [] := hstarts first rfl
    have hhere : (recompose .here (first :: rest)).text.toList =
        '.' :: '/' :: ['/'].intercalate rest := by
      rw [htext, List.intercalate_cons_of_ne_nil hrest, hfirst]
      rfl
    have hcutrest := Text.splitOn_intercalate hrest fun p hp => hslash p (List.mem_cons_of_mem _ hp)
    rw [decompose, hhere]
    simp only [hcutrest, hfirst]
  | none =>
    have hnone : (recompose .none (first :: rest)).text.toList =
        ['/'].intercalate (first :: rest) := htext
    refine decompose_eq_none ?_ (hstarts first rfl)
    rw [hnone, hcut]

theorem Anchor.Starts.of_head {a : Anchor} {first : List Char} {rest rest' : List (List Char)}
    (h : a.Starts (first :: rest)) : a.Starts (first :: rest') := by
  cases a <;> exact h

/-- The directory of a step does not end in a slash. -/
theorem getLast?_recompose (a : Anchor) (pieces : List (List Char)) {last : List Char}
    (hlast : isIdle last = false) (hslash : '/' ∉ last) :
    (recompose a (pieces ++ [last])).text.toList.getLast?.all (· = '/') = false := by
  have hne : last ≠ [] := by
    rintro rfl
    simp [isIdle] at hlast
  have htext : ∃ before, (recompose a (pieces ++ [last])).text.toList = before ++ last := by
    rw [recompose, String.toList_append, String.toList_ofList]
    by_cases hp : pieces = []
    · exact ⟨a.text.toList, by rw [hp, List.nil_append, List.intercalate_singleton]⟩
    · refine ⟨a.text.toList ++ (['/'].intercalate pieces ++ ['/']), ?_⟩
      rw [Text.intercalate_concat hp]
      simp
  obtain ⟨before, hbefore⟩ := htext
  rw [hbefore, List.getLast?_append_of_ne_nil _ hne, List.getLast?_eq_some_getLast hne]
  have hmem := List.getLast_mem hne
  simp only [Option.all_some, decide_eq_false_iff_not]
  exact fun heq => hslash (heq ▸ hmem)

theorem isAbsolute_of_not_mem {name : String} (h : '/' ∉ name.toList) :
    (⟨name⟩ : Path).isAbsolute = false := by
  rw [isAbsolute, decide_eq_false_iff_not]
  exact fun hhead => h (List.mem_of_mem_head? hhead)

/-- Whether a text is the name of a file. -/
structure IsName (name : String) : Prop where
  slash : '/' ∉ name.toList
  idle : isIdle name.toList = false
  up : name.toList ≠ ['.', '.']

section Name

variable {name : String} (h : IsName name)

include h

theorem IsName.components {p : Path} {a : Anchor} {pieces : List (List Char)}
    (hp : p.decompose = (a, pieces ++ [name.toList])) :
    p.components =
      a.components ++ (pieces.filter (!isIdle ·)).map .ofPiece ++ [.named name] := by
  have hpiece : Component.ofPiece name.toList = .named name := by
    rw [Component.ofPiece, if_neg h.up, String.ofList_toList]
  simp [Path.components, hp, List.filter_append, h.idle, hpiece]

theorem IsName.isAbsolute : (⟨name⟩ : Path).isAbsolute = false := isAbsolute_of_not_mem h.slash

/-- A name right below an anchor. -/
theorem decompose_join_anchor (a : Anchor) :
    ∃ pieces, ((recompose a []).join ⟨name⟩).decompose = (a, pieces ++ [name.toList]) ∧
      pieces.filter (!isIdle ·) = [] := by
  have hcut := Text.splitOn_of_not_mem h.slash
  cases a with
  | root =>
    have hjoin : (recompose .root []).join ⟨name⟩ = ⟨"/" ++ name⟩ := by
      simp [join, h.isAbsolute, recompose, Anchor.text]
    refine ⟨[], ?_, rfl⟩
    simp [hjoin, decompose, hcut]
  | here =>
    have hjoin : (recompose .here []).join ⟨name⟩ = ⟨"./" ++ name⟩ := by
      simp [join, h.isAbsolute, recompose, Anchor.text]
    refine ⟨[[]], ?_, rfl⟩
    simp [hjoin, decompose, hcut]
  | none =>
    have hjoin : (recompose .none []).join ⟨name⟩ = ⟨name⟩ := by
      simp [join, h.isAbsolute, recompose, Anchor.text]
    refine ⟨[], ?_, rfl⟩
    rw [hjoin]
    exact decompose_eq_none hcut h.idle

/-- A name below a step. -/
theorem join_recompose (a : Anchor) {pieces : List (List Char)} (hne : pieces ≠ [])
    (hslash : ∀ piece ∈ pieces, '/' ∉ piece)
    (hlast : ∀ last ∈ pieces.getLast?, isIdle last = false) :
    (recompose a pieces).join ⟨name⟩ = recompose a (pieces ++ [name.toList]) := by
  have hsplit := List.dropLast_append_getLast hne
  have hend := hlast _ (List.getLast?_eq_some_getLast hne)
  have hnoslash := hslash _ (List.getLast_mem hne)
  have hopen := getLast?_recompose a pieces.dropLast hend hnoslash
  rw [hsplit] at hopen
  rw [join, h.isAbsolute, hopen, recompose, recompose, Text.intercalate_concat hne]
  refine congrArg Path.mk (String.toList_inj.1 ?_)
  simp

/-- A name below a path that is put together from pieces. -/
theorem components_join_recompose {a : Anchor} {pieces : List (List Char)}
    (hslash : ∀ piece ∈ pieces, '/' ∉ piece) (hstarts : a.Starts pieces)
    (hlast : ∀ last ∈ pieces.getLast?, isIdle last = false) :
    ((recompose a pieces).join ⟨name⟩).components =
      a.components ++ (pieces.filter (!isIdle ·)).map .ofPiece ++ [.named name] := by
  cases pieces with
  | nil =>
    obtain ⟨idle, hdecompose, hnone⟩ := decompose_join_anchor h a
    rw [h.components hdecompose, hnone]
    rfl
  | cons first rest =>
    have hall : ∀ piece ∈ first :: (rest ++ [name.toList]), '/' ∉ piece := by
      intro piece hpiece
      rw [← List.cons_append] at hpiece
      rcases List.mem_append.1 hpiece with hpiece | hpiece
      · exact hslash piece hpiece
      · rw [List.mem_singleton.1 hpiece]
        exact h.slash
    rw [join_recompose h a (List.cons_ne_nil first rest) hslash hlast]
    exact h.components (decompose_recompose hall hstarts.of_head (by simp))

end Name

/-- The place of a file next to another one. -/
theorem components_neighbour {p : Path} {file name : String} (hfile : p.fileName? = some file)
    (hname : IsName name) :
    (match p.parent? with
      | some directory => directory.join ⟨name⟩
      | none => ⟨name⟩).components = p.components.dropLast ++ [.named name] := by
  have hslash := slash_not_mem_decompose p
  have hfilter := filter_dropIdleEnd p.decompose.2
  obtain ⟨idle, hpieces, -, hlast⟩ := dropIdleEnd_eq p.decompose.2
  have hcomponents : p.components = p.decompose.1.components ++
      ((dropIdleEnd p.decompose.2).filter (!isIdle ·)).map .ofPiece := by
    rw [hfilter]
    rfl
  rcases List.eq_nil_or_concat (dropIdleEnd p.decompose.2) with hnil | ⟨steps, last, hsteps⟩
  · have hanchor : p.components = p.decompose.1.components := by
      rw [hcomponents, hnil]
      exact List.append_nil _
    rw [fileName?, hanchor] at hfile
    cases ha : p.decompose.1 <;> simp [ha, Anchor.components] at hfile
  · rw [List.concat_eq_append] at hsteps
    have hidle' : isIdle last = false := hlast last (by rw [hsteps]; simp)
    have hmem : last ∈ p.decompose.2 := by
      rw [hpieces, hsteps]
      simp
    have hstarts := starts_decompose ⟨last, hmem, hidle'⟩
    have hparent : p.parent? = some (recompose p.decompose.1 (dropIdleEnd steps)) := by
      simp only [parent?, hsteps]
      split
      · next h => simp at h
      · rw [List.dropLast_concat]
    obtain ⟨idle', hsteps', -, hlast'⟩ := dropIdleEnd_eq steps
    have hsub : ∀ piece ∈ dropIdleEnd steps, piece ∈ p.decompose.2 := by
      intro piece h
      rw [hpieces, hsteps, hsteps']
      simp [h]
    have hdropLast : p.components.dropLast =
        p.decompose.1.components ++ (steps.filter (!isIdle ·)).map .ofPiece := by
      rw [hcomponents, hsteps, List.filter_append, List.filter_singleton, hidle']
      simp [← List.append_assoc]
    rw [hparent, hdropLast, ← filter_dropIdleEnd steps]
    refine components_join_recompose hname (fun piece h => hslash piece (hsub piece h)) ?_ hlast'
    cases hd : dropIdleEnd steps with
    | nil => cases p.decompose.1 <;> first | exact trivial | exact nofun
    | cons first rest =>
      rw [hpieces, hsteps, hsteps', hd] at hstarts
      exact hstarts.of_head

theorem stem_congr {p q : Path} (h : p.components = q.components) : p.stem = q.stem := by
  rw [stem, stem, stem?, stem?, fileName?, fileName?, h]

theorem fileName?_of_components {p : Path} {steps : List Component} {name : String}
    (h : p.components = steps ++ [.named name]) : p.fileName? = some name := by
  simp [fileName?, h]

theorem components_of_fileName? {p : Path} {name : String} (h : p.fileName? = some name) :
    p.components = p.components.dropLast ++ [.named name] := by
  have hlast : p.components.getLast? = some (.named name) := by
    unfold fileName? at h
    split at h
    · next hlast => rw [hlast, Option.some.inj h]
    · cases h
  obtain ⟨steps, hsteps⟩ := List.getLast?_eq_some_iff.1 hlast
  rw [hsteps, List.dropLast_concat]

theorem slash_not_mem_fileName {p : Path} {file : String} (h : p.fileName? = some file) :
    '/' ∉ file.toList := by
  have hcomponents : p.components = p.decompose.1.components ++
      (p.decompose.2.filter (!isIdle ·)).map .ofPiece := rfl
  have hmem : Component.named file ∈ p.components := by
    unfold fileName? at h
    split at h
    · next name hlast =>
      rw [Option.some.inj h] at hlast
      exact List.mem_of_getLast? hlast
    · cases h
  rw [hcomponents] at hmem
  rcases List.mem_append.1 hmem with hmem | hmem
  · cases ha : p.decompose.1 <;> simp [ha, Anchor.components] at hmem
  · obtain ⟨piece, hpiece, hname⟩ := List.mem_map.1 hmem
    have hslash := slash_not_mem_decompose p piece (List.mem_filter.1 hpiece).1
    unfold Component.ofPiece at hname
    split at hname
    · cases hname
    · cases hname
      rwa [String.toList_ofList]

/-- A file name with an extension. -/
theorem eq_of_extension? {p : Path} {ext : String} (h : p.extension? = some ext) :
    ∃ file, p.fileName? = some file ∧ '/' ∉ ext.toList ∧ '.' ∉ ext.toList := by
  obtain ⟨file, hfile, hcut⟩ := Option.bind_eq_some_iff.1 h
  have hslash := slash_not_mem_fileName hfile
  unfold cutExtension at hcut
  split at hcut
  · cases hcut
  · cases hcut
  · next before after _ hbreak =>
    obtain ⟨hname, hdot⟩ := Text.eq_of_breakAtLast? hbreak
    rw [← Option.some.inj hcut, String.toList_ofList]
    refine ⟨file, hfile, fun hmem => hslash ?_, hdot⟩
    rw [hname]
    simp [hmem]

theorem slash_not_mem_stem (p : Path) : '/' ∉ p.stem.toList := by
  unfold stem stem?
  cases hfile : p.fileName? with
  | none => exact List.not_mem_nil
  | some file =>
    have hslash := slash_not_mem_fileName hfile
    simp only [Option.map_some, Option.getD_some, cutExtension]
    split
    · exact hslash
    · exact hslash
    · next before after _ hbreak =>
      obtain ⟨hname, -⟩ := Text.eq_of_breakAtLast? hbreak
      rw [hname] at hslash
      rw [String.toList_ofList]
      exact fun hmem => hslash (List.mem_append_left _ hmem)

end Path

namespace Target

variable {t : Target} {annex : String}

/-- Whether the file for an annex is called by the annex: that is no empty text, and if there are
dots in it, the last one is not mistaken for that of the extension. -/
def Fits (t : Target) (annex : String) : Prop :=
  annex ≠ "" ∧ ('.' ∈ annex.toList → ∃ ext, t.path.extension? = some ext ∧ ext ≠ "")

/-- Any annex fits a target with an extension. -/
theorem fits_of_extension {ext : String} (hext : t.path.extension? = some ext) (hempty : ext ≠ "")
    (hannex : annex ≠ "") : t.Fits annex :=
  ⟨hannex, fun _ => ⟨ext, hext, hempty⟩⟩

/-- The name of the file for an annex. -/
def annexName (t : Target) (annex : String) : String :=
  annex ++ (t.path.extension?.map ("." ++ ·)).getD ""

theorem Fits.toList_ne_nil (h : t.Fits annex) : annex.toList ≠ [] :=
  fun hnil => h.1 (String.toList_eq_nil_iff.1 hnil)

theorem annexName_of_some (annex : String) {ext : String} (hext : t.path.extension? = some ext) :
    (t.annexName annex).toList = annex.toList ++ '.' :: ext.toList := by
  rw [annexName, hext, Option.map_some, Option.getD_some, String.toList_append,
    String.toList_append]
  rfl

theorem annexName_of_none (hext : t.path.extension? = none) : t.annexName annex = annex := by
  rw [annexName, hext, Option.map_none, Option.getD_none, String.append_empty]

theorem Fits.dot_not_mem (h : t.Fits annex) (hext : t.path.extension? = none) :
    '.' ∉ annex.toList := by
  intro hmem
  obtain ⟨ext, hsome, -⟩ := h.2 hmem
  cases hext.symm.trans hsome

/-- The file for an annex has a name. -/
theorem Fits.isName (h : t.Fits annex) (hslash : '/' ∉ annex.toList) :
    Path.IsName (t.annexName annex) := by
  have hne := h.toList_ne_nil
  cases hext : t.path.extension? with
  | none =>
    have hdot := h.dot_not_mem hext
    rw [annexName_of_none hext]
    refine ⟨hslash, ?_, fun heq => hdot (by simp [heq])⟩
    rw [Path.isIdle, Bool.or_eq_false_iff, decide_eq_false_iff_not, decide_eq_false_iff_not]
    exact ⟨hne, fun heq => hdot (by simp [heq])⟩
  | some ext =>
    have htext := annexName_of_some annex hext
    obtain ⟨-, -, hextslash, -⟩ := Path.eq_of_extension? hext
    obtain ⟨c, cs, hcs⟩ := List.exists_cons_of_ne_nil hne
    refine ⟨?_, ?_, ?_⟩
    · rw [htext]
      simp [hslash, hextslash]
    · rw [Path.isIdle, htext, hcs]
      simp
    · intro heq
      rw [htext, hcs, List.cons_append] at heq
      obtain ⟨rfl, hrest⟩ := List.cons.inj heq
      obtain ⟨ext', hext', hempty⟩ := h.2 (by simp [hcs])
      cases hext.symm.trans hext'
      have hone := congrArg List.length hrest
      simp only [List.length_append, List.length_cons, List.length_nil] at hone
      have hnil : ext.toList = [] := List.length_eq_zero_iff.1 (by omega)
      exact hempty (String.toList_eq_nil_iff.1 hnil)

/-- The annex is the stem of its file. -/
theorem Fits.cutExtension (h : t.Fits annex) :
    (Path.cutExtension (t.annexName annex)).1 = annex := by
  cases hext : t.path.extension? with
  | none =>
    rw [annexName_of_none hext, Path.cutExtension,
      Text.breakAtLast?_of_not_mem (h.dot_not_mem hext)]
  | some ext =>
    obtain ⟨-, -, -, hdot⟩ := Path.eq_of_extension? hext
    obtain ⟨c, cs, hcs⟩ := List.exists_cons_of_ne_nil h.toList_ne_nil
    rw [Path.cutExtension, annexName_of_some annex hext, Text.breakAtLast?_append hdot]
    simp [hcs, ← String.toList_inj]

variable {file : String}

/-- The satellite of an annex stands next to its target. -/
theorem components_annexPath (hfile : t.path.fileName? = some file) (h : t.Fits annex)
    (hslash : '/' ∉ annex.toList) :
    (t.annexPath annex).components =
      t.path.components.dropLast ++ [.named (t.annexName annex)] :=
  Path.components_neighbour hfile (h.isName hslash)

/-- Where a target has an extension, an annex has the same. -/
theorem components_annexPath_of_extension {ext : String} (hext : t.path.extension? = some ext)
    (h : t.Fits annex) (hslash : '/' ∉ annex.toList) :
    (t.annexPath annex).components =
      t.path.components.dropLast ++ [.named (annex ++ "." ++ ext)] := by
  obtain ⟨file, hfile, -⟩ := Path.eq_of_extension? hext
  rw [components_annexPath hfile h hslash, annexName, hext, Option.map_some, Option.getD_some,
    String.append_assoc]

theorem fileName?_annexPath (hfile : t.path.fileName? = some file) (h : t.Fits annex)
    (hslash : '/' ∉ annex.toList) : (t.annexPath annex).fileName? = some (t.annexName annex) :=
  Path.fileName?_of_components (components_annexPath hfile h hslash)

theorem stem_annexPath (hfile : t.path.fileName? = some file) (h : t.Fits annex)
    (hslash : '/' ∉ annex.toList) : (t.annexPath annex).stem = annex := by
  rw [Path.stem, Path.stem?, fileName?_annexPath hfile h hslash, Option.map_some, Option.getD_some]
  exact h.cutExtension

/-- A satellite is recognized as the file of its annex. -/
theorem isAnnex_satellite (hfile : t.path.fileName? = some file) (h : t.Fits annex)
    (hslash : '/' ∉ annex.toList) (headers : List String) :
    (t.satellite annex headers).isAnnex annex :=
  decide_eq_true (stem_annexPath hfile h hslash)

/-- A target is not next to itself. -/
theorem components_annexPath_ne (hfile : t.path.fileName? = some file) (h : t.Fits annex)
    (hslash : '/' ∉ annex.toList) (hstem : t.path.stem ≠ annex) :
    (t.annexPath annex).components ≠ t.path.components := by
  intro hsame
  rw [← stem_annexPath hfile h hslash, Path.stem_congr hsame] at hstem
  exact hstem rfl

/-- No file is called by an annex with a slash. -/
theorem isAnnex_of_slash (t : Target) (hslash : '/' ∈ annex.toList) : t.isAnnex annex = false := by
  rw [isAnnex, decide_eq_false_iff_not]
  exact fun heq => t.path.slash_not_mem_stem (heq ▸ hslash)

end Target

end ApiHeaders
