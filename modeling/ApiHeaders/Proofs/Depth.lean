import ApiHeaders.Proofs.Bytes
import ApiHeaders.Proofs.Parentheses
import Mathlib.Order.Bounds.Basic

/-!
# Counting open parentheses

The parenthesis that closes the first one of a text can be found by counting, with an unsigned
number, how many are open at each byte. The number is never lowered from zero: it starts with the
first parenthesis, and the count ends where it is zero again.

## Main definitions

* `FunctionPointer.countParentheses` counts with a number that can underflow.
* `FunctionPointer.Balances` says that as many parentheses are closed as are open up to a byte.
* `FunctionPointer.matchingOffset?` is the byte of the parenthesis that closes the first one.

## Main statements

* `FunctionPointer.countOpen_succ` says that the count finds the parenthesis which closes the last
  open one.
* `FunctionPointer.parentheses_matched` says that this is the first one up to which as many are
  closed as are open, and that the count never underflows.
-/

namespace ApiHeaders.FunctionPointer

variable {cs inner rest pre post : List Char} {depth offset i : Nat} {c : Char}

/-! ### The count -/

/-- How a count of open parentheses ends. -/
inductive Counting where
  /-- A parenthesis is closed while none is open. -/
  | underflow
  /-- Some are still open at the end of the text. -/
  | unclosed
  /-- The last open one is closed by the one at byte `offset`. -/
  | closed (offset : Nat)
  deriving DecidableEq, Repr

/-- Counts on from byte `offset`, where `depth` parentheses are open, until none is. -/
def countOpen (depth offset : Nat) : List Char → Counting
  | [] => .unclosed
  | c :: cs =>
    if c = '(' then countOpen (depth + 1) (offset + c.utf8Size) cs
    else if c = ')' then
      match depth with
      | 0 => .underflow
      | depth + 1 =>
        if depth = 0 then .closed offset else countOpen depth (offset + c.utf8Size) cs
    else countOpen depth (offset + c.utf8Size) cs

/-- Counts the open parentheses of a text that starts with one. -/
def countParentheses (cs : List Char) : Counting :=
  if cs.head? = some '(' then countOpen 0 0 cs else .unclosed

/-- One step of the count: unless a character closes the last open parenthesis, some number of
others is open after it. -/
theorem countOpen_cons {depth' : Nat} (h : depth' + [c].count ')' = depth + [c].count '(') :
    countOpen (depth + 1) offset (c :: cs) =
      countOpen (depth' + 1) (offset + c.utf8Size) cs := by
  by_cases hopen : c = '('
  · subst hopen
    obtain rfl : depth' = depth + 1 := by simpa using h
    rfl
  · by_cases hclose : c = ')'
    · subst hclose
      obtain rfl : depth = depth' + 1 := by simpa using h.symm
      rfl
    · obtain rfl : depth' = depth := by simpa [hopen, hclose] using h
      rw [countOpen, if_neg hopen, if_neg hclose]

/-- The count goes on to the parenthesis that closes the last open one, if there is one. -/
theorem countOpen_succ (depth offset : Nat) (cs : List Char) :
    countOpen (depth + 1) offset cs =
      match closeParenthesis depth cs with
      | some (inner, _) => .closed (offset + Text.size inner - 1)
      | none => .unclosed := by
  induction cs generalizing depth offset with
  | nil => rfl
  | cons c cs ih =>
    by_cases hlast : c = ')' ∧ depth = 0
    · obtain ⟨rfl, rfl⟩ := hlast
      rfl
    · obtain ⟨depth', hdepth⟩ := exists_depth hlast
      rw [countOpen_cons hdepth, closeParenthesis_cons hdepth, ih]
      cases closeParenthesis depth' cs with
      | none => rfl
      | some found =>
        simp only [Option.map_some, Text.size_cons, Nat.add_assoc]

/-- Where no parenthesis closes the last open one, one is open everywhere. -/
theorem count_le_of_closeParenthesis (h : closeParenthesis depth (pre ++ post) = none) :
    pre.count ')' ≤ pre.count '(' + depth := by
  induction pre generalizing depth with
  | nil => exact Nat.zero_le _
  | cons c pre ih =>
    by_cases hlast : c = ')' ∧ depth = 0
    · obtain ⟨rfl, rfl⟩ := hlast
      cases h
    · obtain ⟨depth', hdepth⟩ := exists_depth hlast
      rw [List.cons_append, closeParenthesis_cons hdepth, Option.map_eq_none_iff] at h
      have hpre := ih h
      rw [← List.singleton_append, List.count_append, List.count_append]
      omega

/-! ### Balanced bytes -/

/-- A `)` stands at a byte of a text, and up to it as many parentheses are closed as are open. -/
def Balances (text : List UInt8) (i : Nat) : Prop :=
  ∃ before after, text = before ++ [')'.toUInt8] ++ after ∧ before.length = i ∧
    (before ++ [')'.toUInt8]).count '('.toUInt8 = (before ++ [')'.toUInt8]).count ')'.toUInt8

theorem balances_iff :
    Balances (Text.bytes cs) i ↔ ∃ pre post, cs = pre ++ [')'] ++ post ∧ Text.size pre = i ∧
      (pre ++ [')']).count '(' = (pre ++ [')']).count ')' := by
  have hclose : [')'.toUInt8] = Text.bytes [')'] := rfl
  have hcount (c : Char) (hc : c.toNat < 128) (pre : List Char) :
      (Text.bytes pre ++ [')'.toUInt8]).count c.toUInt8 = (pre ++ [')']).count c := by
    rw [hclose, ← Text.bytes_append, Text.count_bytes hc]
  constructor
  · rintro ⟨us, vs, heq, rfl, hequal⟩
    obtain ⟨pre, post, rfl, rfl, -⟩ :=
      Text.exists_of_bytes_eq (List.cons_ne_nil ')' []) (hclose ▸ heq)
    rw [hcount '(' (by decide), hcount ')' (by decide)] at hequal
    exact ⟨pre, post, rfl, (Text.length_bytes pre).symm, hequal⟩
  · rintro ⟨pre, post, rfl, rfl, hequal⟩
    refine ⟨Text.bytes pre, Text.bytes post, ?_, Text.length_bytes pre, ?_⟩
    · rw [hclose, Text.bytes_append, Text.bytes_append]
    · rwa [hcount '(' (by decide), hcount ')' (by decide)]

/-! ### The matching parenthesis -/

/-- The byte of the parenthesis that closes the first one of a text. -/
def matchingOffset? (cs : List Char) : Option Nat :=
  (cutParentheses cs).map fun cut => Text.size cut.1 - 1

/-- What is enclosed in parentheses ends with one. -/
theorem Enclosed.exists_concat (h : Enclosed inner) : ∃ init, inner = init ++ [')'] := by
  rcases List.eq_nil_or_concat inner with rfl | ⟨init, c, rfl⟩
  · exact absurd h.opens nofun
  · rw [List.concat_eq_append] at h ⊢
    by_cases hc : c = ')'
    · exact ⟨init, by rw [hc]⟩
    · have hcloses := h.closes
      rw [List.count_append, List.count_append] at hcloses
      have hnone : [c].count ')' = 0 := by simp [hc]
      cases init with
      | nil =>
        obtain rfl : c = '(' := by simpa using h.opens
        simp at hcloses
      | cons d init =>
        have hinside := h.inside (d :: init) [c] rfl (List.cons_ne_nil _ _) (List.cons_ne_nil _ _)
        omega

theorem head?_of_cutParentheses (h : cutParentheses cs = some (inner, rest)) :
    cs.head? = some '(' := by
  obtain ⟨rfl, henclosed⟩ := cutParentheses_eq_some_iff.1 h
  rw [List.head?_append, henclosed.opens]
  rfl

theorem exists_of_matchingOffset? (h : matchingOffset? cs = some i) :
    ∃ pre post, cs = pre ++ [')'] ++ post ∧ Text.size pre = i ∧
      cutParentheses cs = some (pre ++ [')'], post) := by
  obtain ⟨⟨inner, rest⟩, hcut, rfl⟩ := Option.map_eq_some_iff.1 h
  obtain ⟨rfl, henclosed⟩ := cutParentheses_eq_some_iff.1 hcut
  obtain ⟨pre, rfl⟩ := henclosed.exists_concat
  refine ⟨pre, rest, rfl, ?_, hcut⟩
  simp only [Text.size_append]
  rfl

/-- No `)` before the matching one closes as many parentheses as are open. -/
theorem isLeast_of_cutParentheses (h : cutParentheses cs = some (pre ++ [')'], post)) :
    IsLeast {j | Balances (Text.bytes cs) j} (Text.size pre) := by
  obtain ⟨rfl, henclosed⟩ := cutParentheses_eq_some_iff.1 h
  refine ⟨balances_iff.2 ⟨pre, post, rfl, rfl, henclosed.closes.symm⟩, fun j hj => ?_⟩
  obtain ⟨pre', post', heq, rfl, hequal⟩ := balances_iff.1 hj
  rw [List.append_assoc, List.append_assoc] at heq
  have hpre : pre <+: pre ++ ([')'] ++ post) := List.prefix_append ..
  rcases Nat.lt_or_ge pre'.length pre.length with hlt | hle
  · have hpre' : pre' ++ [')'] <+: pre ++ ([')'] ++ post) :=
      ⟨post', by rw [heq, List.append_assoc]⟩
    obtain ⟨between, rfl⟩ := List.prefix_of_prefix_length_le hpre' hpre
      (by rw [List.length_append]; exact hlt)
    have hinside := henclosed.inside (pre' ++ [')']) (between ++ [')'])
      (by rw [List.append_assoc _ between]) (by simp) (by simp)
    omega
  · have hpre' : pre' <+: pre ++ ([')'] ++ post) := ⟨[')'] ++ post', heq.symm⟩
    exact Text.size_le_of_prefix hpre hpre' hle

/-- Where nothing is cut off a text that starts with a parenthesis, no `)` closes as many as are
open. -/
theorem not_balances_of_cutParentheses (h : cutParentheses cs = none)
    (hopens : cs.head? = some '(') (i : Nat) : ¬Balances (Text.bytes cs) i := by
  intro hbalances
  obtain ⟨pre, post, rfl, -, hequal⟩ := balances_iff.1 hbalances
  cases pre with
  | nil => cases hopens
  | cons c pre =>
    obtain rfl : c = '(' := by simpa using hopens
    have hnone : closeParenthesis 0 (pre ++ [')'] ++ post) = none := Option.map_eq_none_iff.1 h
    have hle := count_le_of_closeParenthesis hnone
    rw [List.cons_append, List.count_cons_self, List.count_cons_of_ne (by decide)] at hequal
    omega

theorem matchingOffset?_eq_none_iff :
    matchingOffset? cs = none ↔
      cs.head? ≠ some '(' ∨ ∀ i, ¬Balances (Text.bytes cs) i := by
  rw [matchingOffset?, Option.map_eq_none_iff]
  constructor
  · intro hnone
    by_cases hopens : cs.head? = some '('
    · exact .inr (not_balances_of_cutParentheses hnone hopens)
    · exact .inl hopens
  · intro h
    cases hcut : cutParentheses cs with
    | none => rfl
    | some cut =>
      obtain ⟨inner, rest⟩ := cut
      obtain ⟨pre, rfl⟩ := (cutParentheses_eq_some_iff.1 hcut).2.exists_concat
      rcases h with hopens | hnever
      · exact absurd (head?_of_cutParentheses hcut) hopens
      · exact absurd (isLeast_of_cutParentheses hcut).1 (hnever _)

/-- The count finds what is cut off, and does not underflow. -/
theorem countParentheses_eq (cs : List Char) :
    countParentheses cs = (matchingOffset? cs).elim .unclosed .closed := by
  by_cases hopens : cs.head? = some '('
  · obtain ⟨cs, rfl⟩ := List.head?_eq_some_iff.1 hopens
    have hfirst : countOpen 0 0 ('(' :: cs) = countOpen (0 + 1) 1 cs := rfl
    rw [countParentheses, if_pos hopens, hfirst, countOpen_succ, matchingOffset?, cutParentheses]
    cases closeParenthesis 0 cs <;> rfl
  · rw [countParentheses, if_neg hopens, matchingOffset?_eq_none_iff.2 (.inl hopens)]
    rfl

-- Only the first parenthesis keeps the number from being lowered below zero.
example : countOpen 0 0 "x)".toList = .underflow := by decide

/-- What is cut off a text ends with the first `)` up to which as many parentheses are closed as are
open, if the text starts with one. The unsigned count of the open ones ends there, without an
underflow on its way, and the places before and after that `)` are between two characters. -/
theorem parentheses_matched (cs : List Char) :
    (∀ i, matchingOffset? cs = some i ↔
      cs.head? = some '(' ∧ IsLeast {j | Balances (Text.bytes cs) j} i) ∧
    (matchingOffset? cs = none ↔ cs.head? ≠ some '(' ∨ ∀ i, ¬Balances (Text.bytes cs) i) ∧
    countParentheses cs = (matchingOffset? cs).elim .unclosed .closed ∧
    countParentheses cs ≠ .underflow ∧
    ∀ i, matchingOffset? cs = some i →
      (⟨i⟩ : String.Pos.Raw).IsValid (.ofList cs) ∧
      (⟨i + 1⟩ : String.Pos.Raw).IsValid (.ofList cs) ∧
      ∃ pre post, cs = pre ++ [')'] ++ post ∧ Text.size pre = i ∧
        cutParentheses cs = some (pre ++ [')'], post) := by
  refine ⟨fun i => ⟨fun h => ?_, fun ⟨hopens, hleast⟩ => ?_⟩, matchingOffset?_eq_none_iff,
    countParentheses_eq cs, ?_, fun i h => ?_⟩
  · obtain ⟨pre, post, -, rfl, hcut⟩ := exists_of_matchingOffset? h
    exact ⟨head?_of_cutParentheses hcut, isLeast_of_cutParentheses hcut⟩
  · cases hoffset : matchingOffset? cs with
    | none =>
      rcases matchingOffset?_eq_none_iff.1 hoffset with hnot | hnever
      · exact absurd hopens hnot
      · exact absurd hleast.1 (hnever i)
    | some j =>
      obtain ⟨pre, post, -, rfl, hcut⟩ := exists_of_matchingOffset? hoffset
      rw [(isLeast_of_cutParentheses hcut).unique hleast]
  · rw [countParentheses_eq]
    cases matchingOffset? cs <;> nofun
  · obtain ⟨pre, post, rfl, rfl, hcut⟩ := exists_of_matchingOffset? h
    refine ⟨?_, ?_, pre, post, rfl, rfl, hcut⟩
    · rw [List.append_assoc]
      exact Text.isValid_size pre _
    · have hafter := Text.isValid_size (pre ++ [')']) post
      rwa [Text.size_append] at hafter

end ApiHeaders.FunctionPointer
