import ApiHeaders.Declaration.FunctionPointer
import Mathlib.Data.List.Basic

/-!
# Names that stand alone

The name of a function pointer type is looked for in the middle of its definition, where it is no
part of a longer identifier. The search does not go back into an occurrence that it has refused. No
name that stands alone is lost by that, because such a name does not begin inside an identifier.

## Main definitions

* `FunctionPointer.Occurs` says that a token stands alone at a place of a text.
* `FunctionPointer.IsIdentifier` is a name in the sense of the language.
* `FunctionPointer.Absent` says that a token stands alone nowhere in a text.

## Main statements

* `FunctionPointer.findToken_eq_some_iff` says that a name is found where it stands alone first.
* `FunctionPointer.Absent.append_cons` says that a name does not reach over a character that is no
  part of an identifier.
-/

namespace ApiHeaders.FunctionPointer

variable {token cs xs ys pre post : List Char} {before : Option Char} {skip : Nat} {c : Char}

theorem toNat_of_isIdentifierChar (h : isIdentifierChar c) :
    48 ≤ c.toNat ∧ c.toNat ≤ 122 := by
  simp only [isIdentifierChar, Bool.or_eq_true, Bool.and_eq_true, decide_eq_true_eq] at h
  have hle {a b : Char} (hab : a ≤ b) : a.toNat ≤ b.toNat := hab
  rcases h with ((⟨hlo, hhi⟩ | ⟨hlo, hhi⟩) | ⟨hlo, hhi⟩) | rfl
  · exact ⟨Nat.le_trans (by decide) (hle hlo), hle hhi⟩
  · exact ⟨Nat.le_trans (by decide) (hle hlo), Nat.le_trans (hle hhi) (by decide)⟩
  · exact ⟨hle hlo, Nat.le_trans (hle hhi) (by decide)⟩
  · decide

/-- A token stands between `pre` and `post` and is no part of a longer identifier there. `before`
is the character in front of the text. -/
structure Occurs (token : List Char) (before : Option Char) (cs pre post : List Char) : Prop where
  eq : cs = pre ++ token ++ post
  alone : standsAlone (pre.getLast?.or before) post.head?

theorem occurs_cons_iff :
    Occurs token before (c :: cs) (c :: pre) post ↔ Occurs token (some c) cs pre post := by
  have hlast : (c :: pre).getLast?.or before = pre.getLast?.or (some c) := by
    cases hpre : pre.getLast? <;> simp [List.getLast?_cons, hpre]
  constructor
  · rintro ⟨heq, halone⟩
    exact ⟨(List.cons.inj heq).2, hlast ▸ halone⟩
  · rintro ⟨rfl, halone⟩
    exact ⟨rfl, hlast ▸ halone⟩

theorem eq_of_attempt (h : (if skip = 0 then Text.stripStart? token cs else none) = some post) :
    cs = token ++ post := by
  split at h
  · exact Text.stripStart?_eq_some_iff.1 h
  · cases h

/-- The search only finds places where the token stands alone. -/
theorem occurs_of_findTokenFrom (h : findTokenFrom token before skip cs = some (pre, post)) :
    Occurs token before cs pre post := by
  induction cs generalizing before skip pre with
  | nil =>
    rw [findTokenFrom] at h
    split at h
    · next after hafter =>
      split at h
      · next halone =>
        cases h
        exact ⟨eq_of_attempt hafter, halone⟩
      · cases h
    · cases h
  | cons c cs ih =>
    have hcons {skip : Nat} (hfound : ((findTokenFrom token (some c) skip cs).map
        fun found => (c :: found.1, found.2)) = some (pre, post)) :
        Occurs token before (c :: cs) pre post := by
      obtain ⟨⟨pre', post'⟩, hrest, heq⟩ := Option.map_eq_some_iff.1 hfound
      cases heq
      exact occurs_cons_iff.2 (ih hrest)
    rw [findTokenFrom] at h
    split at h
    · next after hafter =>
      split at h
      · next halone =>
        cases h
        exact ⟨eq_of_attempt hafter, halone⟩
      · exact hcons h
    · exact hcons h

/-- A name: identifier characters only, and at least one. -/
structure IsIdentifier (name : List Char) : Prop where
  ne_nil : name ≠ []
  chars : ∀ c ∈ name, isIdentifierChar c

theorem isIdentifier_iff {name : List Char} :
    IsIdentifier name ↔ name ≠ [] ∧ name.all isIdentifierChar := by
  rw [List.all_eq_true]
  exact ⟨fun h => ⟨h.ne_nil, h.chars⟩, fun h => ⟨h.1, h.2⟩⟩

instance : DecidablePred IsIdentifier := fun _ => decidable_of_iff _ isIdentifier_iff.symm

theorem IsIdentifier.append {xs ys : List Char} (h : IsIdentifier xs) (h' : IsIdentifier ys) :
    IsIdentifier (xs ++ ys) where
  ne_nil := List.append_ne_nil_of_left_ne_nil h.ne_nil ys
  chars := List.forall_mem_append.2 ⟨h.chars, h'.chars⟩

/-- Where occurrences are passed over, the text continues an identifier. -/
structure Continues (before : Option Char) (skip : Nat) (cs : List Char) : Prop where
  before : skip ≠ 0 → before.any isIdentifierChar
  chars : ∀ c ∈ cs.take (skip - 1), isIdentifierChar c

theorem continues_zero (before : Option Char) (cs : List Char) : Continues before 0 cs :=
  ⟨fun h => absurd rfl h, by simp⟩

theorem Continues.tail (h : Continues before skip (c :: cs)) :
    Continues (some c) (skip - 1) cs where
  before hskip := by
    obtain ⟨n, hn⟩ := Nat.exists_eq_succ_of_ne_zero hskip
    exact h.chars c (by simp [hn])
  chars d hd := by
    cases hskip : skip - 1 with
    | zero => simp [hskip] at hd
    | succ n =>
      rw [hskip, Nat.add_sub_cancel] at hd
      exact h.chars d (by rw [hskip]; exact List.mem_cons_of_mem c hd)

/-- Behind the start of a refused occurrence, an identifier goes on. -/
theorem continues_of_occurrence (hname : IsIdentifier token)
    (h : c :: cs = token ++ post) : Continues (some c) (token.length - 1) cs := by
  obtain ⟨d, ds, rfl⟩ := List.exists_cons_of_ne_nil hname.ne_nil
  rw [List.cons_append] at h
  obtain ⟨rfl, rfl⟩ := List.cons.inj h
  refine ⟨fun _ => hname.chars c List.mem_cons_self, fun d hd => ?_⟩
  rw [List.length_cons, Nat.add_sub_cancel, List.take_append_of_le_length (Nat.sub_le _ 1)] at hd
  exact hname.chars d (List.mem_cons_of_mem c (List.mem_of_mem_take hd))

/-- Wherever a name stands alone, it is found there or before. -/
theorem exists_findTokenFrom (hname : IsIdentifier token) (hskip : Continues before skip cs)
    (h : Occurs token before cs pre post) :
    ∃ pre' post', findTokenFrom token before skip cs = some (pre', post') ∧
      pre'.length ≤ pre.length := by
  induction cs generalizing before skip pre with
  | nil =>
    have hnil := h.eq
    simp [hname.ne_nil] at hnil
  | cons c cs ih =>
    have hcons {skip : Nat} (hcontinues : Continues (some c) skip cs) (hpre : pre ≠ []) :
        ∃ pre' post', ((findTokenFrom token (some c) skip cs).map
          fun found => (c :: found.1, found.2)) = some (pre', post') ∧
            pre'.length ≤ pre.length := by
      obtain ⟨d, pre, rfl⟩ := List.exists_cons_of_ne_nil hpre
      obtain rfl : c = d := (List.cons.inj h.eq).1
      obtain ⟨pre', post', hfound, hle⟩ := ih hcontinues (occurs_cons_iff.1 h)
      exact ⟨c :: pre', post', by rw [hfound]; rfl, Nat.succ_le_succ hle⟩
    rw [findTokenFrom]
    split
    · next after hafter =>
      split
      · exact ⟨[], after, rfl, Nat.zero_le _⟩
      · next hjoined =>
        have hocc : c :: cs = token ++ after := eq_of_attempt hafter
        refine hcons (continues_of_occurrence hname hocc) ?_
        rintro rfl
        have hpost : post = after := List.append_cancel_left (h.eq.symm.trans hocc)
        exact hjoined (hpost ▸ h.alone)
    · next hnone =>
      refine hcons hskip.tail ?_
      rintro rfl
      have halone := h.alone
      by_cases hzero : skip = 0
      · have hocc : Text.stripStart? token (c :: cs) = some post :=
          Text.stripStart?_eq_some_iff.2 h.eq
        rw [if_pos hzero, hocc] at hnone
        cases hnone
      · have hident := hskip.before hzero
        cases before with
        | none => cases hident
        | some b =>
          have hb : isIdentifierChar b := hident
          simp [standsAlone, hb] at halone

/-- A name is found exactly where it stands alone first. -/
theorem findToken_eq_some_iff (hname : IsIdentifier token) :
    findToken token cs = some (pre, post) ↔
      Occurs token none cs pre post ∧
        ∀ pre' post', Occurs token none cs pre' post' → pre.length ≤ pre'.length := by
  have hfirst {pre' post' : List Char} (h : Occurs token none cs pre' post') :=
    exists_findTokenFrom hname (continues_zero none cs) h
  constructor
  · intro h
    refine ⟨occurs_of_findTokenFrom h, ?_⟩
    intro pre' post' hoccurs
    obtain ⟨pre'', post'', hfound, hle⟩ := hfirst hoccurs
    rw [← findToken, h] at hfound
    cases hfound
    exact hle
  · rintro ⟨hoccurs, hleast⟩
    obtain ⟨pre', post', hfound, hle⟩ := hfirst hoccurs
    have hfound' := occurs_of_findTokenFrom hfound
    have hlength : pre'.length = pre.length := Nat.le_antisymm hle (hleast pre' post' hfound')
    have heq := hfound'.eq.symm.trans hoccurs.eq
    rw [List.append_assoc, List.append_assoc] at heq
    obtain ⟨rfl, hrest⟩ := List.append_inj heq hlength
    rw [findToken, hfound, List.append_cancel_left hrest]

/-! ### Texts without a name -/

/-- A token stands alone nowhere in a text. -/
def Absent (token cs : List Char) : Prop := ∀ pre post, ¬Occurs token none cs pre post

theorem occurs_none_iff :
    Occurs token none cs pre post ↔ cs = pre ++ token ++ post ∧
      pre.getLast?.all (!isIdentifierChar ·) ∧ post.head?.all (!isIdentifierChar ·) := by
  rw [← Bool.and_eq_true]
  constructor
  · rintro ⟨heq, halone⟩
    exact ⟨heq, by rwa [Option.or_none] at halone⟩
  · rintro ⟨heq, halone⟩
    exact ⟨heq, by rwa [Option.or_none]⟩

/-- A name does not reach over a character that is no part of an identifier. -/
theorem Occurs.of_append_cons (hname : IsIdentifier token) (hc : isIdentifierChar c = false)
    (h : Occurs token none (xs ++ c :: ys) pre post) :
    (∃ post', Occurs token none xs pre post') ∨
      ∃ pre', pre = xs ++ c :: pre' ∧ Occurs token none ys pre' post := by
  have hnot : c ∉ token := fun hmem => Bool.false_ne_true (hc.symm.trans (hname.chars c hmem))
  obtain ⟨heq, hleft, hright⟩ := occurs_none_iff.1 h
  rw [List.append_assoc] at heq
  rcases List.append_eq_append_iff.1 heq with ⟨as, rfl, has⟩ | ⟨bs, rfl, hbs⟩
  · cases as with
    | nil =>
      obtain ⟨d, ds, rfl⟩ := List.exists_cons_of_ne_nil hname.ne_nil
      obtain rfl : c = d := (List.cons.inj has).1
      exact absurd List.mem_cons_self hnot
    | cons d pre =>
      obtain ⟨rfl, hys⟩ := List.cons.inj has
      refine .inr ⟨pre, rfl, occurs_none_iff.2 ⟨by rw [hys, List.append_assoc]; rfl, ?_, hright⟩⟩
      rw [List.getLast?_append_cons, List.getLast?_cons] at hleft
      cases hlast : pre.getLast? with
      | none => rfl
      | some e => rwa [hlast] at hleft
  · left
    rcases List.append_eq_append_iff.1 hbs with ⟨es, rfl, rfl⟩ | ⟨es, rfl, hes⟩
    · refine ⟨es, occurs_none_iff.2 ⟨by rw [List.append_assoc], hleft, ?_⟩⟩
      cases es with
      | nil => rfl
      | cons e es => exact hright
    · cases es with
      | nil => exact ⟨[], occurs_none_iff.2 ⟨by simp, hleft, rfl⟩⟩
      | cons e es =>
        obtain rfl : c = e := (List.cons.inj hes).1
        exact absurd (by simp) hnot

theorem Absent.append_cons (hname : IsIdentifier token) (hc : isIdentifierChar c = false)
    (hxs : Absent token xs) (hys : Absent token ys) : Absent token (xs ++ c :: ys) := by
  intro pre post h
  rcases h.of_append_cons hname hc with ⟨post', h⟩ | ⟨pre', -, h⟩
  · exact hxs pre post' h
  · exact hys pre' post h

/-- A token is absent where the search does not find it. -/
theorem absent_of_findToken (hname : IsIdentifier token) (h : findToken token cs = none) :
    Absent token cs := by
  intro pre post hoccurs
  obtain ⟨pre', post', hfound, -⟩ := exists_findTokenFrom hname (continues_zero none cs) hoccurs
  rw [← findToken, h] at hfound
  cases hfound

theorem absent_nil (hname : IsIdentifier token) : Absent token [] := by
  intro pre post h
  have heq := h.eq
  simp [hname.ne_nil] at heq

/-- Inside an identifier, no other name stands alone. -/
theorem absent_of_ne (hcs : IsIdentifier cs) (hne : token ≠ cs) : Absent token cs := by
  intro pre post h
  obtain ⟨rfl, hleft, hright⟩ := occurs_none_iff.1 h
  have hpre : pre = [] := by
    by_contra hpre
    have hident :=
      hcs.chars _ (List.mem_append_left _ (List.mem_append_left _ (List.getLast_mem hpre)))
    rw [List.getLast?_eq_some_getLast hpre] at hleft
    simp [hident] at hleft
  have hpost : post = [] := by
    by_contra hpost
    have hident := hcs.chars _ (List.mem_append_right _ (List.head_mem hpost))
    rw [List.head?_eq_some_head hpost] at hright
    simp [hident] at hright
  exact hne (by simp [hpre, hpost])

theorem absent_replicate (hname : IsIdentifier token) (hc : isIdentifierChar c = false) (n : Nat) :
    Absent token (List.replicate n c) := by
  induction n with
  | zero => exact absent_nil hname
  | succ n ih => exact (absent_nil hname).append_cons hname hc ih

end ApiHeaders.FunctionPointer
