import ApiHeaders.Declaration.FunctionPointer
import ApiHeaders.Proofs.Pieces
import ApiHeaders.Xml.Attribute
import Mathlib.Data.List.TakeWhile

/-!
# How text and attributes are written

Character data and the attributes of a tag can be written in many ways. Whichever is taken, reading
gives the data back.

## Main definitions

* `entities` lists the predefined entities.
* `Spells` says how a text is written with references for its special characters.
* `IsName` and `IsBlank` say which texts are names and which stand between other things.
* `SpellsAttributes` says how the attributes of a tag are written.

## Main statements

* `resolve_of_spells` reads a text back.
* `Attribute.readAll_of_spells` reads a tag with its attributes back.
-/

namespace ApiHeaders.Xml

variable {special s s' cs cs' raw : List Char} {c x : Char} {attributes : List Attribute}
  {tag : String}

/-! ### Texts -/

/-- The predefined entities: their names and what they stand for. -/
def entities : List (List Char × Char) :=
  [("lt".toList, '<'), ("gt".toList, '>'), ("amp".toList, '&'), ("apos".toList, '\''),
    ("quot".toList, '"')]

/-- The text `s` is written as `cs`: each of its characters stands for itself, unless it is a
special one, or is written as a reference to a predefined entity. -/
inductive Spells (special : List Char) : List Char → List Char → Prop
  | nil : Spells special [] []
  | plain {c : Char} {s cs : List Char} (hc : c ∉ special) (rest : Spells special s cs) :
      Spells special (c :: s) (c :: cs)
  | entity {name : List Char} {c : Char} {s cs : List Char} (hname : (name, c) ∈ entities)
      (rest : Spells special s cs) : Spells special (c :: s) ('&' :: name ++ ';' :: cs)

namespace Spells

theorem append (h : Spells special s cs) (h' : Spells special s' cs') :
    Spells special (s ++ s') (cs ++ cs') := by
  induction h with
  | nil => exact h'
  | plain hc rest ih => exact .plain hc ih
  | entity hname rest ih =>
    rw [List.append_assoc, List.cons_append]
    exact .entity hname ih

/-- A special character that no reference needs is not written. -/
theorem not_mem (h : Spells special s cs) (hx : x ∈ special)
    (hentities : ∀ entity ∈ entities, x ∉ '&' :: entity.1 ++ [';']) : x ∉ cs := by
  induction h with
  | nil => exact List.not_mem_nil
  | plain hc rest ih =>
    rw [List.mem_cons, not_or]
    exact ⟨fun heq => hc (heq ▸ hx), ih⟩
  | entity hname rest ih =>
    rw [List.append_cons, List.mem_append, not_or]
    exact ⟨hentities _ hname, ih⟩

end Spells

theorem cutReference_entity {name : List Char} (h : (name, c) ∈ entities) (cs : List Char) :
    cutReference (name ++ ';' :: cs) = some (name, cs) := by
  simp only [entities, List.mem_cons, Prod.mk.injEq, List.not_mem_nil, or_false] at h
  rcases h with ⟨rfl, -⟩ | ⟨rfl, -⟩ | ⟨rfl, -⟩ | ⟨rfl, -⟩ | ⟨rfl, -⟩ <;> rfl

theorem referenced_entity {name : List Char} (h : (name, c) ∈ entities) (start : Nat) :
    referenced start name = .ok c := by
  simp only [entities, List.mem_cons, Prod.mk.injEq, List.not_mem_nil, or_false] at h
  rcases h with ⟨rfl, rfl⟩ | ⟨rfl, rfl⟩ | ⟨rfl, rfl⟩ | ⟨rfl, rfl⟩ | ⟨rfl, rfl⟩ <;> rfl

theorem resolveFrom_of_spells (h : Spells special s cs) (hamp : '&' ∈ special)
    (stop position : Nat) : resolveFrom stop position cs = .ok s := by
  induction h generalizing position with
  | nil => rw [resolveFrom]
  | @plain c s cs hc rest ih =>
    have hne : c ≠ '&' := fun heq => hc (heq ▸ hamp)
    rw [resolveFrom, if_neg hne, ih]
    rfl
  | @entity name c s cs hname rest ih =>
    rw [List.cons_append, resolveFrom, if_pos rfl]
    split
    · next hcut =>
      rw [cutReference_entity hname] at hcut
      cases hcut
    · next hcut =>
      rw [cutReference_entity hname] at hcut
      cases hcut
      rw [referenced_entity hname, ih]
      rfl

/-- A text is read back, however it is written. -/
theorem resolve_of_spells (h : Spells special s cs) (hamp : '&' ∈ special) :
    resolve cs = .ok s :=
  resolveFrom_of_spells h hamp _ _

/-! ### Names and blanks -/

/-- Names are identifiers: letters, digits and underscores, at least one. -/
def IsName (cs : List Char) : Prop := cs ≠ [] ∧ ∀ c ∈ cs, FunctionPointer.isIdentifierChar c

def IsBlank (cs : List Char) : Prop := ∀ c ∈ cs, isSpace c

instance : DecidablePred IsName := fun cs =>
  @instDecidableAnd _ _ _ (List.decidableBAll _ cs)

instance : DecidablePred IsBlank := fun cs => List.decidableBAll _ cs

/-- No character of a name is blank or has a meaning in a tag. -/
theorem IsName.ne (h : IsName cs) (hc : c ∈ cs) :
    isSpace c = false ∧ c ∉ ['=', '>', '/', '"', '\'', '!', '?'] := by
  have hx {x : Char} (hx : FunctionPointer.isIdentifierChar x = false) : c ≠ x := by
    rintro rfl
    exact Bool.false_ne_true (hx.symm.trans (h.2 c hc))
  refine ⟨?_, ?_⟩
  · simp only [isSpace, Bool.or_eq_false_iff, decide_eq_false_iff_not]
    exact ⟨⟨⟨hx rfl, hx rfl⟩, hx rfl⟩, hx rfl⟩
  · simp only [List.mem_cons, List.not_mem_nil, or_false, not_or]
    exact ⟨hx rfl, hx rfl, hx rfl, hx rfl, hx rfl, hx rfl, hx rfl⟩

/-- A run of characters that satisfy `p` ends where one does not. -/
theorem span_append (xs ys : List Char) {p : Char → Bool} (hxs : ∀ c ∈ xs, p c)
    (hys : ∀ c ∈ ys.head?, p c = false) :
    (xs ++ ys).takeWhile p = xs ∧ (xs ++ ys).dropWhile p = ys := by
  rw [List.takeWhile_append_of_pos hxs, List.dropWhile_append_of_pos hxs]
  cases ys with
  | nil => exact ⟨xs.append_nil, rfl⟩
  | cons y ys =>
    have hy : p y = false := hys y rfl
    rw [List.takeWhile_cons, List.dropWhile_cons, hy]
    exact ⟨xs.append_nil, rfl⟩

/-! ### Attributes -/

/-- How the attributes of a tag are written after its name: each after a blank, as a key, an equals
sign and a value in double quotes, which may have blanks between them. -/
inductive SpellsAttributes : List Attribute → List Char → Prop
  | nil {blank : List Char} (hblank : IsBlank blank) : SpellsAttributes [] blank
  | cons {a : Attribute} {attributes : List Attribute} {blank left right raw cs : List Char}
      (hblank : IsBlank blank) (hne : blank ≠ []) (hkey : IsName a.key.toList)
      (hleft : IsBlank left) (hright : IsBlank right)
      (hvalue : Spells ['&', '<', '"'] a.value.toList raw) (rest : SpellsAttributes attributes cs) :
      SpellsAttributes (a :: attributes)
        (blank ++ a.key.toList ++ left ++ '=' :: right ++ '"' :: raw ++ '"' :: cs)

theorem readEquals_blank {left : List Char} (hleft : IsBlank left) (position : Nat)
    (cs : List Char) :
    readEquals position (left ++ '=' :: cs) = .ok (position + Text.size left + 1, cs) := by
  obtain ⟨htake, hdrop⟩ := span_append left ('=' :: cs) hleft (by rintro c ⟨⟩; rfl)
  simp only [readEquals, htake, hdrop]

theorem readQuoted_blank {right : List Char} (hright : IsBlank right) (hraw : '"' ∉ raw)
    (position : Nat) (cs : List Char) :
    ∃ next, readQuoted position (right ++ '"' :: raw ++ '"' :: cs) = .ok (raw, next, cs) := by
  rw [List.append_assoc, List.cons_append]
  obtain ⟨htake, hdrop⟩ := span_append right ('"' :: (raw ++ '"' :: cs)) hright
    (by rintro c ⟨⟩; rfl)
  simp only [readQuoted, htake, hdrop, Text.breakAt?_append hraw]
  exact ⟨_, rfl⟩

/-- An attribute is read back if its key is new. -/
theorem RawAttribute.read_of_spells {key left right : List Char} (hkey : IsName (c :: key))
    (hleft : IsBlank left) (hright : IsBlank right) (hraw : '"' ∉ raw)
    {seen : List (List Char × Nat)} (hseen : seen.lookup (c :: key) = none) (start : Nat)
    (cs : List Char) :
    ∃ next, RawAttribute.read seen start c
      (key ++ left ++ '=' :: right ++ '"' :: raw ++ '"' :: cs) =
        .ok (⟨c :: key, raw⟩, next, cs) := by
  have hkeyChars : ∀ x ∈ key, isKeyChar x := by
    intro x hx
    obtain ⟨hspace, hspecial⟩ := hkey.ne (List.mem_cons_of_mem c hx)
    simp only [isKeyChar, hspace, Bool.not_false, Bool.true_and, decide_eq_true_eq]
    rintro rfl
    exact hspecial List.mem_cons_self
  have hend : ∀ x ∈ (left ++ '=' :: (right ++ '"' :: raw ++ '"' :: cs)).head?,
      isKeyChar x = false := by
    intro x hx
    cases left with
    | nil =>
      cases hx
      rfl
    | cons y left =>
      cases hx
      rw [isKeyChar, hleft x List.mem_cons_self]
      rfl
  have hassoc : key ++ left ++ '=' :: right ++ '"' :: raw ++ '"' :: cs =
      key ++ (left ++ '=' :: (right ++ '"' :: raw ++ '"' :: cs)) := by
    simp only [List.append_assoc, List.cons_append]
  obtain ⟨htake, hdrop⟩ := span_append _ _ hkeyChars hend
  obtain ⟨next, hquoted⟩ := readQuoted_blank hright hraw
    (start + Text.size (c :: key) + Text.size left + 1) cs
  refine ⟨next, ?_⟩
  rw [hassoc, RawAttribute.read]
  simp only [htake, hdrop, readEquals_blank hleft, hseen, hquoted]

theorem Attribute.readFrom_cons {seen : List (List Char × Nat)} {position after : Nat}
    {more rest value : List Char} {first : RawAttribute}
    (hdrop : cs.dropWhile isSpace = c :: more)
    (hread : RawAttribute.read seen (position + Text.size (cs.takeWhile isSpace)) c more =
      .ok (first, after, rest))
    (hvalue : resolve first.value = .ok value) :
    readFrom seen position cs =
      (readFrom ((first.key, position + Text.size (cs.takeWhile isSpace)) :: seen) after rest).map
        (⟨.ofList first.key, .ofList value⟩ :: ·) := by
  rw [readFrom]
  split
  · next hnil => cases hdrop.symm.trans hnil
  · next c' more' hcons =>
    cases hdrop.symm.trans hcons
    split
    · next hfault => cases hread.symm.trans hfault
    · next hraw =>
      cases hread.symm.trans hraw
      rw [hvalue]
      rfl

/-- What follows the name of a tag starts with a blank. -/
theorem SpellsAttributes.head (h : SpellsAttributes attributes cs) : ∀ c ∈ cs.head?, isSpace c := by
  intro c hc
  cases h with
  | nil hblank => exact hblank c (List.mem_of_mem_head? hc)
  | @cons a attributes blank left right raw cs hblank hne hkey hleft hright hvalue rest =>
    obtain ⟨x, blank, rfl⟩ := List.exists_cons_of_ne_nil hne
    cases hc
    exact hblank c List.mem_cons_self

/-- Attributes are read back if their keys are distinct and new. -/
theorem SpellsAttributes.readFrom (h : SpellsAttributes attributes cs)
    (hkeys : (attributes.map (·.key)).Nodup) (seen : List (List Char × Nat))
    (hseen : ∀ a ∈ attributes, seen.lookup a.key.toList = none) (position : Nat) :
    Attribute.readFrom seen position cs = .ok attributes := by
  induction h generalizing seen position with
  | @nil blank hblank =>
    have hdrop : blank.dropWhile isSpace = [] := List.dropWhile_eq_nil_iff.2 hblank
    rw [Attribute.readFrom]
    split
    · rfl
    · next hcons => cases hdrop.symm.trans hcons
  | @cons a attributes blank left right raw cs hblank hne hkey hleft hright hvalue rest ih =>
    obtain ⟨hnew, hkeys⟩ := List.nodup_cons.1 hkeys
    obtain ⟨hfirst, hseen⟩ := List.forall_mem_cons.1 hseen
    have hraw : '"' ∉ raw := hvalue.not_mem (by decide) (by decide)
    obtain ⟨c, key, hchars⟩ := List.exists_cons_of_ne_nil hkey.1
    rw [hchars] at hkey hfirst
    have hassoc : blank ++ a.key.toList ++ left ++ '=' :: right ++ '"' :: raw ++ '"' :: cs =
        blank ++ c :: (key ++ left ++ '=' :: right ++ '"' :: raw ++ '"' :: cs) := by
      simp only [hchars, List.append_assoc, List.cons_append]
    obtain ⟨htake, hdrop⟩ := span_append blank
      (c :: (key ++ left ++ '=' :: right ++ '"' :: raw ++ '"' :: cs)) hblank
      (by rintro x ⟨⟩; exact (hkey.ne List.mem_cons_self).1)
    obtain ⟨next, hread⟩ := RawAttribute.read_of_spells hkey hleft hright hraw hfirst
      (position + Text.size blank) cs
    rw [← htake] at hread
    have hlater : ∀ b ∈ attributes,
        List.lookup b.key.toList ((c :: key, position + Text.size blank) :: seen) = none := by
      intro b hb
      have hne : b.key.toList ≠ c :: key := by
        rw [← hchars]
        intro heq
        exact hnew (List.mem_map.2 ⟨b, hb, String.toList_inj.1 heq⟩)
      rw [List.lookup_cons, beq_false_of_ne hne]
      exact hseen b hb
    rw [hassoc, Attribute.readFrom_cons hdrop hread (resolve_of_spells hvalue (by decide)), htake,
      ih hkeys _ hlater]
    simp only [← hchars, Except.map, String.ofList_toList]

/-- The name and the attributes of a tag are read back. -/
theorem Attribute.readAll_of_spells (htag : IsName tag.toList)
    (h : SpellsAttributes attributes cs) (hkeys : (attributes.map (·.key)).Nodup) :
    readAll (tag.toList ++ cs) = .ok (tag, attributes) := by
  have hend : ∀ c ∈ cs.head?, (!isSpace c) = false := by
    intro c hc
    rw [h.head c hc]
    rfl
  have hattributes := h.readFrom hkeys [] (fun _ _ => rfl) (Text.size tag.toList)
  obtain ⟨htake, hdrop⟩ := span_append tag.toList cs (p := (!isSpace ·))
    (fun c hc => by rw [(htag.ne hc).1]; rfl) hend
  rw [readAll]
  simp only [htake, hdrop, hattributes, String.ofList_toList]
  rfl

end ApiHeaders.Xml
