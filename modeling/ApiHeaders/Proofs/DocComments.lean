import ApiHeaders.Doc
import ApiHeaders.Proofs.BlockComments
import ApiHeaders.Proofs.Breaks
import ApiHeaders.Proofs.Placement
import ApiHeaders.Proofs.Ranges
import ApiHeaders.Proofs.Trimming

/-!
# Closed comments

Documentation, the properties of enumerants and the remarks on requirements are put into block
comments as they stand. Nothing between the ends of such a comment can make a `*/` by its layout:
labels, separators, margins and wrapped lines bring in none and take none apart. So one of these
comments goes on to its end exactly if no text that it shows has a `*/`.

## Main definitions

* `Doc.shownTexts` lists the texts that the lines of a property show.

## Main statements

* `Text.hasTerminator_replaceChar` and `Text.hasTerminator_titleWords` are about texts that are
  written in another way.
* `Doc.anyTerminator_propertyLines` and `Doc.anyTerminator_lines` look for terminators in lines.
* `comments_closed_iff` says which comments of a set are closed at their ends only.
-/

namespace ApiHeaders

open Text (HasTerminator AnyTerminator IsComment)

/-! ### Terminators in texts that are written in another way -/

namespace Text

variable {c : Char} {cs : List Char}

theorem hasTerminator_trim : HasTerminator (trim cs) ↔ HasTerminator cs := by
  obtain ⟨blank, hblank, hcs⟩ := exists_trimStart cs
  have hstar : '*' ∉ blank := hblank.not_mem (by decide)
  rw [trim, trimEnd_eq_rdropWhile, hasTerminator_rdropWhile (by decide)]
  conv_rhs => rw [hcs]
  exact (hasTerminator_append_left hstar).symm

/-- Writing another text for a character does not matter if neither has to do with terminators. -/
theorem hasTerminator_replaceChar {written : String} (hstar : c ≠ '*') (hslash : c ≠ '/')
    (hne : written.toList ≠ []) (hwstar : '*' ∉ written.toList) (hwslash : '/' ∉ written.toList)
    (s : String) : HasTerminator (replaceChar c written s).toList ↔ HasTerminator s.toList := by
  rw [replaceChar, escapeWith, String.toList_ofList]
  -- what stands in front decides whether the next character ends a terminator
  suffices h : ∀ xs, HasTerminator (xs ++ s.toList.flatMap fun d =>
      (if d = c then written else .singleton d).toList) ↔ HasTerminator (xs ++ s.toList) from h []
  induction s.toList with
  | nil => simp
  | cons d ds ih =>
    intro xs
    rw [List.flatMap_cons]
    by_cases hd : d = c
    · rw [if_pos hd, hasTerminator_append_append hne hwstar hwslash, hd,
        hasTerminator_append_cons hstar hslash]
      exact or_congr_right (ih [])
    · simpa [hd] using ih (xs ++ [d])

/-- No letter is mapped to a character of a terminator. -/
theorem not_mem_of_isAlphabetic {d : Char} (hd : d = '*' ∨ d = '/') (hc : isAlphabetic c) :
    c ≠ d ∧ d ∉ lowerChar c ∧ d ∉ upperChar c := by
  have hne : c ≠ d := by
    rintro rfl
    rcases hd with rfl | rfl <;> exact absurd hc (by decide +kernel)
  rcases hd with rfl | rfl <;>
    exact ⟨hne, not_mem_mapCase (by decide) (by decide +kernel) (by decide +kernel) hne,
      not_mem_mapCase (by decide) (by decide +kernel) (by decide +kernel) hne⟩

theorem mapCase_ne_nil {expansions : List (Nat × List Nat)} {runs : List CaseRun}
    (h : ∀ e ∈ expansions, e.2 ≠ []) (c : Char) : mapCase expansions runs c ≠ [] := by
  unfold mapCase
  split
  · next image hlookup =>
    obtain ⟨before, after, hmem, -⟩ := List.lookup_eq_some_iff.1 hlookup
    have himage := h (c.toNat, image) (by rw [hmem]; simp)
    simpa using himage
  · split <;> simp

/-- Words may be capitalised. -/
theorem hasTerminator_titleWords (s : String) :
    HasTerminator (titleWords s).toList ↔ HasTerminator s.toList := by
  rw [titleWords, String.toList_ofList]
  suffices h : ∀ inWord xs, HasTerminator (xs ++ titleChars inWord s.toList) ↔
      HasTerminator (xs ++ s.toList) from h false []
  induction s.toList with
  | nil => simp [titleChars]
  | cons c cs ih =>
    intro inWord xs
    rw [titleChars]
    split
    · next hc =>
      obtain ⟨hstar, hlower, hupper⟩ := not_mem_of_isAlphabetic (.inl rfl) hc
      obtain ⟨hslash, hlower', hupper'⟩ := not_mem_of_isAlphabetic (.inr rfl) hc
      have himage : (if inWord then lowerChar c else upperChar c) ≠ [] := by
        split <;> exact mapCase_ne_nil (by decide +kernel) c
      rw [hasTerminator_append_append himage (by split <;> assumption) (by split <;> assumption),
        hasTerminator_append_cons hstar hslash]
      exact or_congr_right (ih true [])
    · simpa using ih false (xs ++ [c])

end Text

namespace Doc

variable {groups : Table String (List String)} {lower upper : List Char} {ls : List String}

/-! ### The lines of a property -/

theorem hasTerminator_label {name : String} (h : '*' ∉ name.toList) (columns : Nat)
    (s : String) : HasTerminator (label columns name ++ s).toList ↔ HasTerminator s.toList := by
  refine Text.hasTerminator_toList_append_left ?_
  simp [label, Text.padRight, Text.spaces, h]

/-- An interval shows the bounds of a range. -/
theorem hasTerminator_interval {cs : List Char} (h : bounds? cs = some (lower, upper)) :
    HasTerminator (interval lower upper).toList ↔ HasTerminator cs := by
  obtain ⟨shown, hinterval, hshown⟩ : ∃ shown, interval lower upper =
      "[" ++ .ofList (Text.trim lower) ++ " - " ++ .ofList shown ++ "]" ∧
      (HasTerminator shown ↔ HasTerminator (Text.trim upper)) := by
    refine ⟨_, rfl, ?_⟩
    split
    · next heq => rw [heq, Text.hasTerminator_trim, Text.hasTerminator_cons_of_ne (by decide)]
    · next heq => rw [heq]
    · exact Text.hasTerminator_cons_of_ne (by decide)
  have hlist : (interval lower upper).toList =
      '[' :: (Text.trim lower ++ ' ' :: '-' :: ' ' :: (shown ++ [']'])) := by
    rw [hinterval]
    simp
  rw [eq_of_bounds? h, Text.hasTerminator_append_cons (by decide) (by decide), hlist,
    Text.hasTerminator_cons_of_ne (by decide),
    Text.hasTerminator_append_cons (by decide) (by decide), Text.hasTerminator_trim]
  simp [Text.hasTerminator_append_right, hshown, Text.hasTerminator_trim]

/-- Filled lines show the values and what stood on the first line. -/
theorem anyTerminator_fill {closing : String} (h : '/' ∉ closing.toList) (indent : Nat)
    (line : String) (values : List String) :
    AnyTerminator (closed closing (fill indent line values)) ↔
      HasTerminator line.toList ∨ AnyTerminator values := by
  fun_induction fill indent line values with
  | case1 line => simp [closed, Text.hasTerminator_append_right h]
  | case2 line value values _ ih =>
    have hsep : HasTerminator (line ++ ", " ++ value).toList ↔
        HasTerminator line.toList ∨ HasTerminator value.toList := by
      rw [String.toList_append, String.toList_append, List.append_assoc]
      exact Text.hasTerminator_append_append (by decide) (by decide) (by decide)
    rw [ih, hsep, Text.anyTerminator_cons, or_assoc]
  | case3 line value values _ lines last heq ih =>
    have hindent : '*' ∉ (Text.spaces indent).toList := by simp [Text.spaces]
    rw [heq, Text.hasTerminator_toList_append_left hindent] at ih
    rw [closed_cons, Text.anyTerminator_cons, ih, Text.anyTerminator_cons,
      Text.hasTerminator_toList_append_right (by decide)]

theorem anyTerminator_listLines (columns : Nat) (values : List String) :
    AnyTerminator (listLines columns values) ↔ AnyTerminator values := by
  have hlabel (s : String) : HasTerminator (label columns "Range" ++ s).toList ↔
      HasTerminator s.toList := hasTerminator_label (by decide) columns s
  match values with
  | [] =>
    have hnone := hlabel ""
    simp_all [listLines]
  | [value] => simp only [listLines, Text.anyTerminator_cons, hlabel]
  | value :: next :: values =>
    rw [listLines_cons (List.cons_ne_nil next values), anyTerminator_fill (by decide),
      String.append_assoc, hlabel, Text.hasTerminator_toList_append_left (by decide)]
    exact Text.anyTerminator_cons.symm

theorem anyTerminator_rangeLines (columns : Nat) (range : String) :
    AnyTerminator (rangeLines groups columns range) ↔ AnyTerminator
      (if (bounds? range.toList).isSome then [range] else rangeValues groups range) := by
  rw [rangeLines]
  split
  · next lower upper hbounds =>
    have hlabel : HasTerminator (label columns "Range" ++ interval lower upper).toList ↔
        HasTerminator (interval lower upper).toList :=
      hasTerminator_label (by decide) columns (interval lower upper)
    simp only [hbounds, Option.isSome_some, if_true, Text.anyTerminator_cons, hlabel,
      hasTerminator_interval hbounds]
  · next hbounds =>
    rw [hbounds]
    exact anyTerminator_listLines columns (rangeValues groups range)

/-- The texts that the lines of a property show. A list of values is shown for its range. -/
def shownTexts (groups : Table String (List String)) (p : Property) : List String :=
  p.type.toList
    ++ (p.range.map fun range =>
      if (bounds? range.toList).isSome then [range] else rangeValues groups range).getD []
    ++ p.valueClass.toList ++ p.default.toList

theorem anyTerminator_labelled {name : String} {shown : String → String} (h : '*' ∉ name.toList)
    (hshown : ∀ s, HasTerminator (shown s).toList ↔ HasTerminator s.toList) (columns : Nat)
    (value : Option String) :
    AnyTerminator (value.map fun s => label columns name ++ shown s).toList ↔
      AnyTerminator value.toList := by
  cases value with
  | none => rfl
  | some s =>
    simp only [Option.map_some, Option.toList_some, Text.anyTerminator_cons, hasTerminator_label h,
      hshown]

theorem anyTerminator_propertyLines (p : Property) :
    AnyTerminator (propertyLines groups p) ↔ AnyTerminator (shownTexts groups p) := by
  have hcommas (s : String) : HasTerminator (Text.replaceChar ',' ", " s).toList ↔
      HasTerminator s.toList :=
    Text.hasTerminator_replaceChar (by decide) (by decide) (by decide) (by decide) (by decide) s
  have hdefault (s : String) : HasTerminator (defaultText s).toList ↔ HasTerminator s.toList := by
    rw [defaultText]
    split
    · rw [Text.hasTerminator_toList_append_right (by decide),
        Text.hasTerminator_toList_append_left (by decide), hcommas]
    · rfl
  have hclass (s : String) : HasTerminator ("any valid " ++ (Text.titleWords s ++ " ID")).toList ↔
      HasTerminator s.toList := by
    rw [Text.hasTerminator_toList_append_left (by decide),
      Text.hasTerminator_toList_append_right (by decide), Text.hasTerminator_titleWords]
  unfold propertyLines shownTexts
  simp only [Text.anyTerminator_append, String.append_assoc]
  refine or_congr (or_congr (or_congr ?_ ?_) ?_) ?_
  · exact anyTerminator_labelled (by decide) hcommas _ p.type
  · cases p.range with
    | none => rfl
    | some range => exact anyTerminator_rangeLines _ range
  · exact anyTerminator_labelled (by decide) hclass _ p.valueClass
  · exact anyTerminator_labelled (by decide) hdefault _ p.default

theorem lines_ne_nil (groups : Table String (List String)) (property : Option Property)
    {doc : List String} (h : doc ≠ []) : lines groups property doc ≠ [] := by
  obtain ⟨first, rest, rfl⟩ := List.exists_cons_of_ne_nil h
  rw [lines]
  split
  · simp
  · split <;> simp

/-- Documentation shows its own lines and those of a property. -/
theorem anyTerminator_lines {property : Option Property} {doc : List String} (h : doc ≠ []) :
    AnyTerminator (lines groups property doc) ↔
      AnyTerminator (doc ++ (property.map (shownTexts groups)).getD []) := by
  obtain ⟨first, rest, rfl⟩ := List.exists_cons_of_ne_nil h
  have hmore : AnyTerminator ((property.map (propertyLines groups)).getD []) ↔
      AnyTerminator ((property.map (shownTexts groups)).getD []) := by
    cases property with
    | none => rfl
    | some p => exact anyTerminator_propertyLines p
  rw [lines, Text.anyTerminator_append, ← hmore]
  split
  · rw [List.cons_append]
    simp only [Text.anyTerminator_cons, Text.anyTerminator_append]
    tauto
  · split <;> simp [or_assoc]

/-! ### Whole comments -/

/-- A line inside a comment without its line feed. -/
def starred (line : String) : String := .ofList ((" * " ++ line).toList.rdropWhile (· = ' '))

theorem anyTerminator_starred (ls : List String) :
    AnyTerminator (ls.map starred) ↔ AnyTerminator ls := by
  induction ls with
  | nil => rfl
  | cons l ls ih =>
    rw [List.map_cons, Text.anyTerminator_cons, Text.anyTerminator_cons, ih, starred,
      String.toList_ofList, Text.hasTerminator_rdropWhile (by decide), Text.hasTerminator_starred]

theorem isComment_documentation {c : Char} (hc : c ≠ '*' ∧ c ≠ '/') {text : String}
    {cs : List Char} (htext : text.toList = ['/', '*', '*'] ++ c :: (cs ++ ' ' :: ['*', '/'])) :
    ['/', '*', '*'] <+: text.toList ∧ ['*', '/'] <:+ text.toList ∧
      (IsComment text.toList ↔ ¬HasTerminator cs) := by
  rw [htext]
  refine ⟨List.prefix_append .., ⟨['/', '*', '*'] ++ c :: (cs ++ [' ']), by simp⟩, ?_⟩
  exact Text.isComment_iff (by decide) (by decide) hc (by decide)

/-- Lines make one comment exactly if none of them holds a terminator. -/
theorem exists_comment (h : ls ≠ []) :
    ∃ text, comment ls = text ++ "\n" ∧ ['/', '*', '*'] <+: text.toList ∧
      ['*', '/'] <:+ text.toList ∧ (IsComment text.toList ↔ ¬AnyTerminator ls) := by
  fun_cases comment ls with
  | case1 => exact absurd rfl h
  | case2 line =>
    have htext : ("/** " ++ line ++ " */").toList =
        ['/', '*', '*'] ++ ' ' :: (line.toList ++ ' ' :: ['*', '/']) := by simp
    refine ⟨"/** " ++ line ++ " */", by simp [String.append_assoc], ?_⟩
    simpa only [Text.anyTerminator_cons, Text.anyTerminator_nil, or_false] using
      isComment_documentation (by decide) htext
  | case3 ls =>
    have hlines : ls.map commentLine = (ls.map starred).map (· ++ "\n") := by
      rw [List.map_map]
      rfl
    have htext : ("/**\n" ++ String.join (ls.map commentLine) ++ " */").toList =
        ['/', '*', '*'] ++ '\n' ::
          ((String.join (ls.map commentLine)).toList ++ ' ' :: ['*', '/']) := by simp
    have hcomment := isComment_documentation (by decide) htext
    rw [hlines, Text.hasTerminator_join, anyTerminator_starred, ← hlines] at hcomment
    exact ⟨_, by simp [String.append_assoc], hcomment⟩

end Doc

/-- The comments of a set and of its declarations are closed at their ends exactly if no text that
they show holds the end of a comment: no line of documentation and no text of a property, and of a
requirement not its comment. -/
theorem comments_closed_iff (r : Registry) :
    (∀ (property : Option Property) (doc : List String), doc ≠ [] →
      ∃ text, Doc.render r.groups property (some doc) = text ++ "\n" ∧
        ['/', '*', '*'] <+: text.toList ∧ ['*', '/'] <:+ text.toList ∧
        (IsComment text.toList ↔
          ∀ shown ∈ doc ++ (property.map (Doc.shownTexts r.groups)).getD [],
            ¬HasTerminator shown.toList)) ∧
    ∀ (s : ApiSet) (t : Target) (guard : Bool) (lines : List String),
      (s.inlineLines r t guard).result = .ok lines →
      ∃ items, (s.items r t).result = .ok items ∧
        lines = s.opening r guard ++ items.flatMap Item.lines ++ s.closing guard ∧
        ∀ text, .comment text ∈ items → (∃ req ∈ s.requirements, req.comment = some text) ∧
          ∃ line, Item.lines (.comment text) = [line] ∧
            (IsComment line.toList ↔ ¬HasTerminator text.toList) := by
  constructor
  · intro property doc hdoc
    obtain ⟨text, heq, hopens, hends, hcomment⟩ :=
      Doc.exists_comment (Doc.lines_ne_nil r.groups property hdoc)
    refine ⟨text, heq, hopens, hends, ?_⟩
    rw [hcomment, Doc.anyTerminator_lines hdoc]
    simp only [AnyTerminator, not_exists, not_and]
  · intro s t guard lines h
    obtain ⟨items, hitems, rfl⟩ := map_eq_ok.1 (ApiSet.result_inlineLines guard ▸ h)
    refine ⟨items, hitems, rfl, fun text htext => ⟨?_, "/* " ++ text ++ " */", rfl, ?_⟩⟩
    · rw [← ApiSet.map_snd_placed hitems] at htext
      obtain ⟨⟨p, _⟩, hplaced, rfl⟩ := List.mem_map.1 htext
      obtain ⟨p, hp, hmem⟩ := List.mem_flatMap.1 hplaced
      obtain ⟨item, hitem, heq⟩ := List.mem_map.1 hmem
      cases heq
      exact ApiSet.exists_of_comment_mem hitems hp hitem
    · have hline : ("/* " ++ text ++ " */").toList =
          ['/', '*'] ++ ' ' :: (text.toList ++ ' ' :: ['*', '/']) := by simp
      rw [hline]
      exact Text.isComment_iff List.prefix_rfl (by decide) (by decide) (by decide)

/-- A constant whose documentation ends its own comment. -/
def leakingConstant : Enumerant where
  name := "AL_N"
  value := "1"
  property := none
  groups := []
  doc := some ["Gain */ int x;"]
  deprecated := none

/-- A feature whose requirement has a comment that ends itself. -/
def leakingFeature : ApiSet where
  kind := .feature
  name := "A"
  apis := ["al"]
  requirements := [{ names := ["AL_N"], comment := some "Core */ int y;" }]
  annex := none
  doc := none

/-- Both comments are ended within their texts. -/
theorem leaking_comments_not_closed :
    let r := ({} : Registry).insert (.enumerant leakingConstant)
    let t := Target.of ⟨"al.h"⟩ ["al"] .header
    ∃ lines, (leakingFeature.inlineLines r t true).result = .ok lines ∧
      (∃ line ∈ lines, line = "/* Core */ int y; */" ∧ ¬IsComment line.toList) ∧
      ∃ line ∈ lines, line = "/** Gain */ int x; */" ∧ ¬IsComment line.toList := by
  intro r t
  obtain ⟨lines, h, hmem, hmem'⟩ : ∃ lines,
      (leakingFeature.inlineLines r t true).result = .ok lines ∧
        "/* Core */ int y; */" ∈ lines ∧ "/** Gain */ int x; */" ∈ lines :=
    ⟨_, rfl, by decide +kernel, by decide +kernel⟩
  obtain ⟨hdoc, hset⟩ := comments_closed_iff r
  refine ⟨lines, h, ⟨_, hmem, rfl, ?_⟩, _, hmem', rfl, ?_⟩
  · obtain ⟨items, hitems, -, hcomments⟩ := hset leakingFeature t true lines h
    obtain ⟨items', hitems', hcomment⟩ : ∃ items, (leakingFeature.items r t).result = .ok items ∧
        .comment "Core */ int y;" ∈ items := ⟨_, rfl, by decide +kernel⟩
    obtain rfl : items' = items := Except.ok.inj (hitems'.symm.trans hitems)
    obtain ⟨-, line, hline, hiff⟩ := hcomments _ hcomment
    obtain rfl : "/* Core */ int y; */" = line := List.singleton_inj.1 hline
    rw [hiff]
    decide
  · obtain ⟨text, heq, -, -, hiff⟩ := hdoc none ["Gain */ int x;"] (by decide)
    obtain rfl : "/** Gain */ int x; */" = text := (String.append_left_inj "\n").1 heq
    rw [hiff]
    decide

end ApiHeaders
