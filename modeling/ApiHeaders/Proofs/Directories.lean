import ApiHeaders.Proofs.Neighbours

/-!
# Directories

The directory of a path has the steps of the path but the last one, and what is below a directory
adds its own. A name adds one, unless it is idle.

## Main definitions

* `Path.steps` are the steps that a text makes, `Path.stepOf` is the one that a name makes.

## Main statements

* `Path.components_parent` gives the place of a directory.
* `Path.components_join` gives the place of a path below a directory.
* `Target.components_annexPath_of_step` and `Target.components_annexPath_of_idle` give the place of
  the file for any annex.
-/

namespace ApiHeaders

namespace Path

variable {p q d : Path} {name : String}

/-- The steps that a text makes below a directory. -/
def steps (text : String) : List Component :=
  ((Text.splitOn '/' text.toList).filter (!isIdle ·)).map .ofPiece

/-- The step that a name makes below a directory. An idle one makes none. -/
def stepOf (name : String) : List Component :=
  if isIdle name.toList then [] else [.ofPiece name.toList]

theorem steps_of_not_mem (h : '/' ∉ name.toList) : steps name = stepOf name := by
  rw [steps, Text.splitOn_of_not_mem h, stepOf]
  by_cases hidle : isIdle name.toList <;> simp [hidle]

/-- A place is its anchor and the steps of the text. -/
theorem components_eq (p : Path) : p.components = p.decompose.1.components ++ steps p.text := by
  obtain ⟨decomposed, hd⟩ : ∃ decomposed, p.decompose = decomposed := ⟨_, rfl⟩
  rw [components, hd]
  unfold decompose at hd
  split at hd
  · next heq => simp [← hd, steps, heq, Text.splitOn, isIdle]
  · next heq => simp [← hd, steps, heq, Text.splitOn, isIdle]
  · next cs heq =>
    have hsplit : Text.splitOn '/' ('.' :: '/' :: cs) = ['.'] :: Text.splitOn '/' cs := by
      simp [Text.splitOn]
    simp [← hd, steps, heq, hsplit, isIdle]
  · rw [← hd, steps]

/-- Only the empty path has no step at all. -/
theorem text_eq_empty_of_components (h : p.components = []) : p.text = "" := by
  obtain ⟨decomposed, hd⟩ : ∃ decomposed, p.decompose = decomposed := ⟨_, rfl⟩
  rw [components, hd] at h
  unfold decompose at hd
  split at hd
  · simp [← hd, Anchor.components] at h
  · simp [← hd, Anchor.components] at h
  · simp [← hd, Anchor.components] at h
  · next hroot hhere hdot =>
    by_contra hne
    obtain ⟨c, cs, hcs⟩ :=
      List.exists_cons_of_ne_nil fun hnil => hne (String.toList_eq_nil_iff.1 hnil)
    have hslash : c ≠ '/' := fun heq => hroot cs (heq ▸ hcs)
    obtain ⟨piece, pieces, hpieces⟩ :=
      List.exists_cons_of_ne_nil (Text.splitOn_ne_nil '/' cs)
    have hrest : ['/'].intercalate (Text.splitOn '/' cs) = cs := Text.intercalate_splitOn cs
    have hidle : isIdle (c :: piece) := by
      by_contra hstep
      simp [← hd, hcs, Text.splitOn, hslash, hpieces, hstep, Anchor.components] at h
    -- The first piece is a dot by itself, and that would have been an anchor.
    obtain ⟨rfl, rfl⟩ : c = '.' ∧ piece = [] := by simpa [isIdle] using hidle
    rw [hpieces] at hrest
    cases pieces with
    | nil => exact hhere (hcs.trans (by rw [← hrest]; rfl))
    | cons next pieces =>
      rw [List.intercalate_cons_of_ne_nil (List.cons_ne_nil _ _)] at hrest
      exact hdot _ (hcs.trans (by rw [← hrest]; rfl))

/-- A text that goes on after a slash has the same anchor, and its pieces go on likewise. -/
theorem decompose_append {cs : List Char} (hq : q.text.toList = p.text.toList ++ '/' :: cs)
    (hp : p.text ≠ "") : ∃ idle, (∀ piece ∈ idle, isIdle piece) ∧
      q.decompose = (p.decompose.1, idle ++ p.decompose.2 ++ Text.splitOn '/' cs) := by
  obtain ⟨decomposed, hd⟩ : ∃ decomposed, p.decompose = decomposed := ⟨_, rfl⟩
  rw [hd]
  unfold decompose at hd
  split at hd
  · next before heq =>
    rw [heq] at hq
    refine ⟨[], nofun, ?_⟩
    simp [← hd, decompose, hq, Text.splitOn_append_cons]
  · next heq =>
    rw [heq] at hq
    refine ⟨[[]], by simp [isIdle], ?_⟩
    simp [← hd, decompose, hq]
  · next before heq =>
    rw [heq] at hq
    refine ⟨[], nofun, ?_⟩
    simp [← hd, decompose, hq, Text.splitOn_append_cons]
  · next hroot hhere hdot =>
    refine ⟨[], nofun, ?_⟩
    rw [← hd, List.nil_append, ← Text.splitOn_append_cons, ← hq]
    -- What comes after the slash does not make another anchor of the text before.
    unfold decompose
    split
    · next heq =>
      rw [hq, List.append_eq_cons_iff] at heq
      rcases heq with ⟨hnil, -⟩ | ⟨before, hbefore, -⟩
      · exact absurd (String.toList_eq_nil_iff.1 hnil) hp
      · exact absurd hbefore (hroot before)
    · next heq =>
      rw [hq, List.append_eq_singleton_iff] at heq
      rcases heq with ⟨hnil, -⟩ | ⟨-, hnil⟩
      · exact absurd (String.toList_eq_nil_iff.1 hnil) hp
      · cases hnil
    · next heq =>
      rw [hq, List.append_eq_cons_iff] at heq
      rcases heq with ⟨hnil, -⟩ | ⟨before, hbefore, heq⟩
      · exact absurd (String.toList_eq_nil_iff.1 hnil) hp
      · cases before with
        | nil => exact absurd hbefore hhere
        | cons c before =>
          obtain ⟨rfl, -⟩ := List.cons.inj heq
          exact absurd hbefore (hdot before)
    · rfl

/-- What follows a slash adds its steps. -/
theorem components_append (hq : q.text.toList = p.text.toList ++ '/' :: name.toList)
    (hp : p.text ≠ "") : q.components = p.components ++ steps name := by
  obtain ⟨idle, hidle, hdecompose⟩ := decompose_append hq hp
  have hnone : idle.filter (!isIdle ·) = [] :=
    List.filter_eq_nil_iff.2 fun piece h => by simp [hidle piece h]
  simp only [components, hdecompose, steps, List.filter_append, hnone, List.nil_append,
    List.map_append, List.append_assoc]

/-- The place of a path below a directory. -/
theorem components_join (hd : d.text ≠ "") (hrelative : (⟨name⟩ : Path).isAbsolute = false) :
    (d.join ⟨name⟩).components = d.components ++ steps name := by
  rw [join, hrelative]
  by_cases hend : d.text.toList.getLast?.all (· = '/')
  · -- The slash at the end of the directory is the one before the name.
    obtain ⟨init, hinit⟩ : ∃ init, d.text.toList = init ++ ['/'] := by
      have hne : d.text.toList ≠ [] := fun hnil => hd (String.toList_eq_nil_iff.1 hnil)
      rw [List.getLast?_eq_some_getLast hne, Option.all_some, decide_eq_true_eq] at hend
      exact ⟨d.text.toList.dropLast, by rw [← hend, List.dropLast_append_getLast]⟩
    have htext : (d.text ++ name).toList = init ++ '/' :: name.toList := by simp [hinit]
    simp only [Bool.false_eq_true, if_false, hend, if_true]
    by_cases hnil : init = []
    · have hroot : d.decompose = (.root, [[]]) := by simp [decompose, hinit, hnil, Text.splitOn]
      have hbelow : (⟨d.text ++ name⟩ : Path).decompose =
          (.root, Text.splitOn '/' name.toList) := by
        rw [hnil] at htext
        simp [decompose, htext]
      simp [components, hroot, hbelow, steps, isIdle]
    · have hopen : (⟨String.ofList init⟩ : Path).text ≠ "" := by
        intro hempty
        exact hnil (by simpa using congrArg String.toList hempty)
      have hdir : d.components = (⟨String.ofList init⟩ : Path).components ++ steps "" :=
        components_append (by simpa using hinit) hopen
      have hbelow := components_append (p := ⟨String.ofList init⟩) (q := ⟨d.text ++ name⟩)
        (by simpa using htext) hopen
      have hidle : steps "" = [] := rfl
      rw [hbelow, hdir, hidle, List.append_nil]
  · simp only [Bool.false_eq_true, if_false, hend]
    exact components_append (by simp) hd

/-- The place of a name that stands by itself. -/
theorem components_name (hname : '/' ∉ name.toList) (hdot : name ≠ ".") :
    (⟨name⟩ : Path).components = stepOf name := by
  have hdecompose : (⟨name⟩ : Path).decompose = (.none, [name.toList]) := by
    unfold decompose
    split
    · next heq => simp [heq] at hname
    · next heq => exact absurd (String.toList_inj.1 (heq.trans rfl)) hdot
    · next heq => simp [heq] at hname
    · rw [Text.splitOn_of_not_mem hname]
  rw [components_eq, hdecompose, steps_of_not_mem hname]
  rfl

/-- The place of a path that is put together from steps. -/
theorem components_recompose {a : Anchor} {pieces : List (List Char)}
    (hslash : ∀ piece ∈ pieces, '/' ∉ piece) (hstarts : a.Starts pieces)
    (hlast : ∀ last ∈ pieces.getLast?, isIdle last = false) :
    (recompose a pieces).components =
      a.components ++ (pieces.filter (!isIdle ·)).map .ofPiece := by
  cases pieces with
  | nil => cases a <;> rfl
  | cons first rest =>
    by_cases hrest : rest = []
    · subst hrest
      have hidle : isIdle first = false := hlast first rfl
      have hcut := Text.splitOn_of_not_mem (hslash first List.mem_cons_self)
      have hdecompose : (recompose a [first]).decompose = (a, [first]) := by
        cases a with
        | root => simp [recompose, decompose, Anchor.text, hcut]
        | here =>
          have hnil : first = [] := hstarts first rfl
          rw [hnil] at hidle
          cases hidle
        | none => exact decompose_eq_none (by simp [recompose, Anchor.text, hcut]) hidle
      rw [components, hdecompose]
    · rw [components, decompose_recompose hslash hstarts hrest]

/-- The place of a directory. -/
theorem components_parent (h : p.parent? = some d) : d.components = p.components.dropLast := by
  obtain ⟨idle, hpieces, -, hlast⟩ := dropIdleEnd_eq p.decompose.2
  have hcomponents : p.components = p.decompose.1.components ++
      ((dropIdleEnd p.decompose.2).filter (!isIdle ·)).map .ofPiece := by
    rw [filter_dropIdleEnd]
    rfl
  simp only [parent?] at h
  split at h
  · next hnil =>
    split at h
    · next hhere =>
      cases h
      rw [hcomponents, hnil, hhere]
      rfl
    · cases h
  · next hne =>
    cases h
    obtain ⟨steps, last, hsteps⟩ :=
      (List.eq_nil_or_concat (dropIdleEnd p.decompose.2)).resolve_left hne
    rw [List.concat_eq_append] at hsteps
    have hidle : isIdle last = false := hlast last (by simp [hsteps])
    have hslash := slash_not_mem_decompose p
    have hmem : ∀ piece ∈ steps ++ [last], piece ∈ p.decompose.2 := by
      intro piece hpiece
      rw [hpieces, hsteps]
      exact List.mem_append_left _ hpiece
    have hstarts := starts_decompose ⟨last, hmem last (by simp), hidle⟩
    obtain ⟨idle', hsteps', -, hlast'⟩ := dropIdleEnd_eq steps
    have hsub : ∀ piece ∈ dropIdleEnd steps, piece ∈ steps := by
      intro piece hpiece
      rw [hsteps']
      exact List.mem_append_left _ hpiece
    have hdir : p.decompose.1.Starts (dropIdleEnd steps) := by
      cases hd : dropIdleEnd steps with
      | nil => cases p.decompose.1 <;> simp [Anchor.Starts]
      | cons first rest =>
        rw [hpieces, hsteps, hsteps', hd] at hstarts
        exact hstarts.of_head
    rw [hsteps, List.dropLast_concat, components_recompose (fun piece hpiece =>
      hslash piece (hmem piece (List.mem_append_left _ (hsub piece hpiece)))) hdir hlast',
      filter_dropIdleEnd, hcomponents, hsteps, List.filter_append, List.filter_singleton, hidle]
    simp [← List.append_assoc]

theorem components_of_parent_eq_none (h : p.parent? = none) : p.components.dropLast = [] := by
  have hcomponents : p.components = p.decompose.1.components ++
      ((dropIdleEnd p.decompose.2).filter (!isIdle ·)).map .ofPiece := by
    rw [filter_dropIdleEnd]
    rfl
  simp only [parent?] at h
  split at h
  · next hnil =>
    rw [hcomponents, hnil]
    cases p.decompose.1 <;> rfl
  · cases h

end Path

namespace Target

variable {t : Target} {a : String}

theorem slash_not_mem_annexName (t : Target) (h : '/' ∉ a.toList) :
    '/' ∉ (t.annexName a).toList := by
  cases hext : t.path.extension? with
  | none => rwa [annexName_of_none hext]
  | some ext =>
    obtain ⟨-, -, hextslash, -⟩ := Path.eq_of_extension? hext
    rw [annexName_of_some a hext]
    simp [h, hextslash]

/-- The file for an annex is below the directory of the target, or stands by itself if the target is
in none. -/
theorem components_annexPath_or (t : Target)
    (hrelative : (⟨t.annexName a⟩ : Path).isAbsolute = false) :
    t.path.components.dropLast ≠ [] ∧ (t.annexPath a).components =
        t.path.components.dropLast ++ Path.steps (t.annexName a) ∨
      t.path.components.dropLast = [] ∧
        (t.annexPath a).components = (⟨t.annexName a⟩ : Path).components := by
  rw [annexPath]
  cases hparent : t.path.parent? with
  | none => exact .inr ⟨Path.components_of_parent_eq_none hparent, rfl⟩
  | some d =>
    rw [← Path.components_parent hparent]
    change _ ∧ (d.join ⟨t.annexName a⟩).components = _ ∨
      _ ∧ (d.join ⟨t.annexName a⟩).components = _
    by_cases hd : d.text = ""
    · right
      obtain rfl : d = ⟨""⟩ := congrArg Path.mk hd
      refine ⟨rfl, ?_⟩
      simp [Path.join, hrelative]
    · exact .inl ⟨fun hnil => hd (Path.text_eq_empty_of_components hnil),
        Path.components_join hd hrelative⟩

/-- The place of the file for an annex, if its name is a step. -/
theorem components_annexPath_of_step (h : '/' ∉ a.toList)
    (hstep : Path.isIdle (t.annexName a).toList = false) :
    (t.annexPath a).components =
      t.path.components.dropLast ++ [.ofPiece (t.annexName a).toList] := by
  have hstepOf : Path.stepOf (t.annexName a) = [.ofPiece (t.annexName a).toList] := by
    rw [Path.stepOf, hstep]
    rfl
  have hdot : t.annexName a ≠ "." := by
    intro heq
    rw [heq] at hstep
    cases hstep
  have hslash := t.slash_not_mem_annexName h
  rcases t.components_annexPath_or (Path.isAbsolute_of_not_mem hslash) with
    ⟨-, hplace⟩ | ⟨hnil, hplace⟩
  · rw [hplace, Path.steps_of_not_mem hslash, hstepOf]
  · rw [hplace, Path.components_name hslash hdot, hnil, hstepOf]
    rfl

/-- The place of the file for an annex, if its name is idle: the directory of the target, or where
paths start. -/
theorem components_annexPath_of_idle (h : '/' ∉ a.toList)
    (hidle : Path.isIdle (t.annexName a).toList) :
    (t.annexPath a).components = t.path.components.dropLast ∨
      (t.annexPath a).components = [] ∨ (t.annexPath a).components = [.here] := by
  have hstepOf : Path.stepOf (t.annexName a) = [] := by rw [Path.stepOf, if_pos hidle]
  have hslash := t.slash_not_mem_annexName h
  rcases t.components_annexPath_or (Path.isAbsolute_of_not_mem hslash) with
    ⟨-, hplace⟩ | ⟨-, hplace⟩
  · left
    rw [hplace, Path.steps_of_not_mem hslash, hstepOf, List.append_nil]
  · right
    rw [hplace]
    by_cases hdot : t.annexName a = "."
    · rw [hdot]
      exact .inr rfl
    · rw [Path.components_name hslash hdot, hstepOf]
      exact .inl rfl

/-- The file for an annex has its name, wherever the target is. -/
theorem fileName?_annexPath_of_isName (h : '/' ∉ a.toList)
    (hname : Path.IsName (t.annexName a)) :
    (t.annexPath a).fileName? = some (t.annexName a) := by
  have hplace := components_annexPath_of_step h hname.idle
  rw [Component.ofPiece, if_neg hname.up, String.ofList_toList] at hplace
  exact Path.fileName?_of_components hplace

end Target

end ApiHeaders
