import ApiHeaders.Proofs.PointerTypes
import ApiHeaders.Proofs.Suppression
import Mathlib.Algebra.Ring.Parity

/-!
# Messages of deprecated declarations

A module shows the message of a deprecated declaration as a string literal. Backslashes are doubled
first, and then a backslash is set in front of each quote. Since the second step touches nothing
that the first one has written, reading the literal gives the message back, whatever its backslashes
and quotes are.

## Main definitions

* `Text.readLiteral?` reads a string literal up to the quote that ends it.
* `Text.IsEscaped` says that no quote of a text is bare, and that its backslashes come in pairs.
* `Text.literal` is a message as it stands between the quotes.
* `Declaration.withMessage` gives a declaration a message.

## Main statements

* `Text.toList_literal` says what becomes of each character of a message.
* `Text.readLiteral?_literal` and `Text.isEscaped_literal` say that its literal is read back.
* `deprecation_read_back` says so of the declarations in a module.
-/

namespace ApiHeaders

namespace Text

variable {cs xs ys : List Char} {c : Char}

/-! ### String literals -/

/-- Reads the characters of a string literal up to the quote that ends it. A backslash stands in
front of a backslash or a quote, and for nothing else. -/
def readLiteral? : List Char → Option (List Char × List Char)
  | [] => none
  | '"' :: cs => some ([], cs)
  | '\\' :: '\\' :: cs => (readLiteral? cs).map fun (text, rest) => ('\\' :: text, rest)
  | '\\' :: '"' :: cs => (readLiteral? cs).map fun (text, rest) => ('"' :: text, rest)
  | '\\' :: _ => none
  | c :: cs => (readLiteral? cs).map fun (text, rest) => (c :: text, rest)

theorem readLiteral?_cons (hbackslash : c ≠ '\\') (hquote : c ≠ '"') (cs : List Char) :
    readLiteral? (c :: cs) = (readLiteral? cs).map fun (text, rest) => (c :: text, rest) := by
  rw [readLiteral?]
  · exact hquote
  · exact fun _ h _ => hbackslash h
  · exact fun _ h _ => hbackslash h
  · exact hbackslash

/-- How many backslashes a text ends with. -/
def backslashesAtEnd (cs : List Char) : Nat := (cs.reverse.takeWhile (· = '\\')).length

/-- No quote of a text is without a backslash of its own, and the other backslashes make pairs. -/
structure IsEscaped (cs : List Char) : Prop where
  quote : ∀ pre post, cs = pre ++ '"' :: post → Odd (backslashesAtEnd pre)
  paired : ∀ pre post, cs = pre ++ post → post.head? ≠ some '"' → post.head? ≠ some '\\' →
    Even (backslashesAtEnd pre)

/-- Behind whole pairs, backslashes are counted as if these were not there. -/
theorem even_backslashesAtEnd_append (h : Even (backslashesAtEnd xs)) (ys : List Char) :
    Even (backslashesAtEnd (xs ++ ys)) ↔ Even (backslashesAtEnd ys) := by
  unfold backslashesAtEnd at h ⊢
  rw [List.reverse_append, List.takeWhile_append]
  split
  · next hall => rw [List.length_append, hall, Nat.even_add, iff_true_right h]
  · rfl

theorem isEscaped_nil : IsEscaped [] where
  quote pre post h := by simp at h
  paired pre post h _ _ := by
    obtain ⟨rfl, -⟩ := List.append_eq_nil_iff.1 h.symm
    exact Even.zero

theorem IsEscaped.append (hxs : IsEscaped xs) (hys : IsEscaped ys) : IsEscaped (xs ++ ys) := by
  have heven : Even (backslashesAtEnd xs) := hxs.paired xs [] (by simp) nofun nofun
  constructor
  · intro pre post heq
    rcases List.append_eq_append_iff.1 heq with ⟨pre', rfl, hpost⟩ | ⟨rest, hpre, hpost⟩
    · rw [← Nat.not_even_iff_odd, even_backslashesAtEnd_append heven, Nat.not_even_iff_odd]
      exact hys.quote pre' post hpost
    · cases rest with
      | nil =>
        obtain rfl : xs = pre := by simpa using hpre
        exact absurd (hys.quote [] post hpost.symm) (by decide)
      | cons c rest =>
        obtain ⟨rfl, -⟩ := List.cons.inj hpost
        exact hxs.quote pre rest hpre
  · intro pre post heq hquote hbackslash
    rcases List.append_eq_append_iff.1 heq with ⟨pre', rfl, hpost⟩ | ⟨rest, hpre, rfl⟩
    · rw [even_backslashesAtEnd_append heven]
      exact hys.paired pre' post hpost hquote hbackslash
    · cases rest with
      | nil =>
        obtain rfl : xs = pre := by simpa using hpre
        exact heven
      | cons c rest => exact hxs.paired pre (c :: rest) hpre hquote hbackslash

theorem isEscaped_singleton (hbackslash : c ≠ '\\') (hquote : c ≠ '"') : IsEscaped [c] := by
  have hcounts (pre post : List Char) (h : [c] = pre ++ post) : backslashesAtEnd pre = 0 := by
    rcases List.singleton_eq_append_iff.1 h with ⟨rfl, -⟩ | ⟨rfl, -⟩
    · rfl
    · simp [backslashesAtEnd, hbackslash]
  constructor
  · intro pre post h
    rcases List.singleton_eq_append_iff.1 h with ⟨-, hpost⟩ | ⟨-, hpost⟩
    · exact absurd (List.cons.inj hpost).1.symm hquote
    · cases hpost
  · intro pre post h _ _
    rw [hcounts pre post h]
    exact Even.zero

theorem isEscaped_pair (h : c = '\\' ∨ c = '"') : IsEscaped ['\\', c] := by
  constructor
  · intro pre post heq
    rcases List.cons_eq_append_iff.1 heq with ⟨-, hpost⟩ | ⟨pre', rfl, hrest⟩
    · simp at hpost
    · rcases List.singleton_eq_append_iff.1 hrest with ⟨rfl, -⟩ | ⟨-, hpost⟩
      · exact odd_one
      · cases hpost
  · intro pre post heq hquote hbackslash
    rcases List.cons_eq_append_iff.1 heq with ⟨rfl, -⟩ | ⟨pre', rfl, hrest⟩
    · exact Even.zero
    · rcases List.singleton_eq_append_iff.1 hrest with ⟨-, rfl⟩ | ⟨rfl, -⟩
      · rcases h with rfl | rfl
        · exact absurd rfl hbackslash
        · exact absurd rfl hquote
      · rcases h with rfl | rfl <;> decide

/-! ### Messages as literals -/

/-- A message as it stands between the quotes of a literal. -/
def literal (message : String) : String :=
  replaceChar '"' "\\\"" (replaceChar '\\' "\\\\" message)

/-- How a character of a message is written. -/
def escapedChar (c : Char) : List Char :=
  if c = '\\' then ['\\', '\\'] else if c = '"' then ['\\', '"'] else [c]

/-- The two replacements come to one, since the second one leaves backslashes alone. -/
theorem toList_literal (message : String) :
    (literal message).toList = message.toList.flatMap escapedChar := by
  simp only [literal, replaceChar, escapeWith, String.toList_ofList, List.flatMap_assoc]
  congr 1
  funext c
  unfold escapedChar
  by_cases hbackslash : c = '\\'
  · rw [if_pos hbackslash, if_pos hbackslash]
    rfl
  · rw [if_neg hbackslash, if_neg hbackslash, String.toList_singleton, List.flatMap_singleton]
    split <;> simp

theorem isEscaped_literal (message : String) : IsEscaped (literal message).toList := by
  rw [toList_literal]
  induction message.toList with
  | nil => exact isEscaped_nil
  | cons c cs ih =>
    rw [List.flatMap_cons]
    refine IsEscaped.append ?_ ih
    unfold escapedChar
    split
    · exact isEscaped_pair (.inl rfl)
    · split
      · exact isEscaped_pair (.inr rfl)
      · exact isEscaped_singleton ‹_› ‹_›

theorem readLiteral?_literal (message : String) (rest : List Char) :
    readLiteral? ((literal message).toList ++ '"' :: rest) = some (message.toList, rest) := by
  rw [toList_literal]
  induction message.toList with
  | nil => rfl
  | cons c cs ih =>
    rw [List.flatMap_cons, List.append_assoc, escapedChar]
    split
    · next hbackslash => simp [readLiteral?, ih, hbackslash]
    · next hbackslash =>
      split
      · next hquote => simp [readLiteral?, ih, hquote]
      · next hquote =>
        rw [List.singleton_append, readLiteral?_cons hbackslash hquote, ih]
        rfl

theorem literal_injective : Function.Injective literal := by
  intro message message' heq
  have hread := readLiteral?_literal message []
  rw [heq, readLiteral?_literal message'] at hread
  exact String.toList_injective (congrArg Prod.fst (Option.some.inj hread)).symm

end Text

/-! ### Declarations in a module -/

variable {d : Declaration} {r : Registry} {t : Target} {pointer : Bool}

namespace Declaration

/-- A declaration that is deprecated with a message. -/
def withMessage (message : String) : Declaration → Declaration
  | command c => command { c with deprecated := some message }
  | enumerant e => enumerant { e with deprecated := some message }
  | typedef d => typedef { d with deprecated := some message }
  | verbatim v => verbatim { v with deprecated := some message }
  | header name => header name

/-- Whether a module shows that a declaration is deprecated: neither a function pointer type nor
code that is taken over as it stands has a place for it. -/
def showsDeprecation (pointer : Bool) : Declaration → Bool
  | command _ => !pointer
  | enumerant _ => true
  | typedef _ => true
  | verbatim _ => false
  | header _ => false

end Declaration

theorem deprecatedAttribute_eq (message : String) :
    deprecatedAttribute message = "[[deprecated(\"" ++ Text.literal message ++ "\")]]" := rfl

theorem Command.prototype_deprecated (c : Command) (r : Registry) (hform : t.form = .module)
    (message : String) :
    ({ c with deprecated := some message }).prototype r t =
      Doc.render r.groups none c.doc ++ deprecatedAttribute message
        ++ (" " ++ ({ c with doc := none, deprecated := none }).prototype r t) := by
  rw [Command.prototype_eq]
  simp only [prototype, hform, Doc.render_without, String.empty_append, String.append_assoc]
  rfl

theorem Enumerant.render_deprecated (e : Enumerant) (r : Registry) (message : String) :
    ({ e with deprecated := some message }).render r .module =
      Doc.render r.groups e.property e.doc ++ deprecatedAttribute message
        ++ (" " ++ ({ e with doc := none, deprecated := none }).render r .module) := by
  rw [Enumerant.render_eq]
  simp only [render, Doc.render_without, String.empty_append, String.append_assoc, Option.map_some,
    Option.map_none, Option.getD_some, Option.getD_none]

theorem Typedef.render_deprecated (d : Typedef) (r : Registry) (message : String) :
    ({ d with deprecated := some message }).render r .module =
      Doc.render r.groups none d.doc ++ "using " ++ d.name ++ " " ++ deprecatedAttribute message
        ++ (" = " ++ d.type ++ ";") := by
  simp only [render, String.append_assoc, Option.map_some, Option.getD_some]

/-- Where a message stands in the text of a declaration, and what is around it, does not depend on
the message. -/
theorem Declaration.render_withMessage (hform : t.form = .module)
    (hd : d.showsDeprecation pointer) :
    ∃ front back, ∀ message, (d.withMessage message).render pointer r t =
      .ok (front ++ deprecatedAttribute message ++ back) := by
  have hkeep {text : String} (h : ∃ s, text = s ++ ";") : dropFinalBreaks text = text := by
    obtain ⟨s, rfl⟩ := h
    exact dropFinalBreaks_append (by decide) s []
  cases d with
  | command c =>
    obtain rfl : pointer = false := by simpa [showsDeprecation] using hd
    refine ⟨Doc.render r.groups none c.doc,
      " " ++ ({ c with doc := none, deprecated := none }).prototype r t, fun message => ?_⟩
    rw [← c.prototype_deprecated r hform message]
    exact congrArg Except.ok (hkeep ⟨_, rfl⟩)
  | enumerant e =>
    refine ⟨Doc.render r.groups e.property e.doc,
      " " ++ ({ e with doc := none, deprecated := none }).render r .module, fun message => ?_⟩
    rw [← e.render_deprecated r message, ← hform]
    refine congrArg Except.ok (hkeep ?_)
    rw [hform]
    exact ⟨_, String.append_assoc.symm⟩
  | typedef d =>
    refine ⟨Doc.render r.groups none d.doc ++ "using " ++ d.name ++ " ",
      " = " ++ d.type ++ ";", fun message => ?_⟩
    rw [← d.render_deprecated r message, ← hform]
    refine congrArg Except.ok (hkeep ?_)
    rw [hform]
    exact ⟨_, String.append_assoc.symm⟩
  | verbatim => cases hd
  | header => cases hd

/-- In a module, the message of a deprecated command, enumerant or type definition is a string
literal without a bare quote or a single backslash. Reading it gives the message, and it ends at the
quote that the attribute ends with. So no two messages look alike. -/
theorem deprecation_read_back (hform : t.form = .module) (hd : d.showsDeprecation pointer) :
    (∃ front back : String, ∀ message, ∃ literal : String,
      (d.withMessage message).render pointer r t =
        .ok (front ++ "[[deprecated(\"" ++ literal ++ "\")]]" ++ back) ∧
      Text.IsEscaped literal.toList ∧
      ∀ rest, Text.readLiteral? (literal.toList ++ '"' :: rest) = some (message.toList, rest)) ∧
    ∀ message message', (d.withMessage message).render pointer r t =
      (d.withMessage message').render pointer r t → message = message' := by
  obtain ⟨front, back, hrender⟩ := Declaration.render_withMessage (r := r) hform hd
  refine ⟨⟨front, back, fun message => ⟨Text.literal message, ?_,
    Text.isEscaped_literal message, Text.readLiteral?_literal message⟩⟩, ?_⟩
  · rw [hrender, deprecatedAttribute_eq]
    simp only [String.append_assoc]
  · intro message message' h
    rw [hrender, hrender, deprecatedAttribute_eq, deprecatedAttribute_eq] at h
    have htext := Except.ok.inj h
    simp only [String.append_left_inj, String.append_right_inj] at htext
    exact Text.literal_injective htext

/-- A message that would end its literal early, and then take the quote after it along. -/
def hostileMessage : String := "\")]] void f(); \\\" or C:\\"

theorem hostile_message_read_back :
    let c : Command := {
      name := "alFoo", scope := "AL", returnType := "void", parameters := [],
      pointerName := "LPALFOO", exportedOn := none, noexcept := false, doc := none,
      deprecated := none }
    let t : Target := .of ⟨"al.cppm"⟩ ["al"] .module
    let text := "[[deprecated(\"\\\")]] void f(); \\\\\\\" or C:\\\\\")]]"
      ++ " AL_API void AL_APIENTRY alFoo();"
    t.form = .module ∧ (Declaration.command c).showsDeprecation false ∧
      ((Declaration.command c).withMessage hostileMessage).render false {} t = .ok text ∧
      ∃ front back literal : String,
        text = front ++ "[[deprecated(\"" ++ literal ++ "\")]]" ++ back ∧
        Text.IsEscaped literal.toList ∧
        Text.readLiteral? (literal.toList ++ ("\")]]" ++ back).toList) =
          some (hostileMessage.toList, (")]]" ++ back).toList) := by
  intro c t text
  have htext :
      ((Declaration.command c).withMessage hostileMessage).render false {} t = .ok text := by
    decide +kernel
  have hform : t.form = .module := rfl
  have hshown : (Declaration.command c).showsDeprecation false := rfl
  obtain ⟨⟨front, back, hread⟩, -⟩ := deprecation_read_back (r := {}) hform hshown
  obtain ⟨literal, hrender, hescaped, hliteral⟩ := hread hostileMessage
  have hquote : ("\")]]" ++ back).toList = '"' :: (")]]" ++ back).toList := by
    rw [String.toList_append, String.toList_append]
    rfl
  refine ⟨hform, hshown, htext, front, back, literal, Except.ok.inj (htext.symm.trans hrender),
    hescaped, ?_⟩
  rw [hquote]
  exact hliteral _

end ApiHeaders
