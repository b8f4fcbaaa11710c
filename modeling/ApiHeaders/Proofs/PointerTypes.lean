import ApiHeaders.Declaration.Render
import ApiHeaders.Proofs.Parentheses
import ApiHeaders.Proofs.Pieces
import ApiHeaders.Proofs.Tokens
import ApiHeaders.Proofs.Trimming

/-!
# Definitions of function pointer types

Reading starts from the name in the middle of a definition and works outwards. What it accepts is a
definition `typedef RET (CC *NAME)PARAMS QUALS;` with any blanks around its pieces, and the pieces
are those that it returns.

## Main definitions

* `FunctionPointer.IsProper` says what can be told apart in a definition.
* `FunctionPointer.Spelt` says what stands before and after the name.
* `FunctionPointer.Defines` says that a text consists of the pieces of a definition.
* `FunctionPointer.aliasText` is the alias that a type becomes.

## Main statements

* `FunctionPointer.readBefore_eq_some_iff` and `FunctionPointer.readAfter_eq_some_iff` say what is
  read on either side of the name.
* `FunctionPointer.ofTypedef?_eq_some_iff_defines` says which texts are read as a definition.
* `Declaration.render_of_defines` says that a definition becomes an alias of its pieces, and
  `Declaration.defines_of_render` that nothing else does.
-/

namespace ApiHeaders

open Text (AllBlank IsTrimmed Spaced)

namespace FunctionPointer

variable {p : FunctionPointer} {name cs before after returnType convention parameters
  qualifiers : List Char}

/-- The parts of a type, as a definition can tell them apart. -/
structure IsProper (p : FunctionPointer) : Prop where
  returnType_ne_nil : p.returnType ≠ []
  returnType : IsTrimmed p.returnType
  convention : IsTrimmed p.convention
  open_not_mem : '(' ∉ p.convention
  parameters : Enclosed p.parameters
  qualifiers : IsTrimmed p.qualifiers

/-- How a type is defined: `typedef RET (CC *` stands before its name and `)PARAMS QUALS;` after
it, with any blanks around and between the pieces. -/
structure Spelt (p : FunctionPointer) (before after : List Char) : Prop where
  before : Spaced ["typedef".toList, p.returnType, ['('], p.convention, ['*']] before
  after : Spaced [[')'], p.parameters, p.qualifiers, [';']] after

/-! ### Before the name -/

theorem isBlank_punctuation (c : Char) (hc : c ∈ ['t', '(', ')', '*', ';']) :
    Text.isBlank c = false := by
  have hall : ['t', '(', ')', '*', ';'].all (!Text.isBlank ·) := by decide
  simpa using List.all_eq_true.1 hall c hc

/-- The steps of reading what stands before a name. -/
theorem readBefore_steps :
    readBefore cs = some (returnType, convention) ↔
      ∃ left declarator stem, Text.trim cs = "typedef".toList ++ (left ++ '(' :: declarator) ∧
        '(' ∉ declarator ∧ Text.trim declarator = stem ++ ['*'] ∧
        Text.trim left = returnType ∧ returnType ≠ [] ∧ Text.trim stem = convention := by
  simp only [readBefore, bind, Option.bind_eq_some_iff, Text.stripStart?_eq_some_iff,
    Text.stripEnd?_eq_some_iff]
  constructor
  · rintro ⟨code, hcode, ⟨left, declarator⟩, hbreak, stem, hstem, h⟩
    obtain ⟨rfl, hopen⟩ := Text.eq_of_breakAtLast? hbreak
    split at h
    · cases h
    · next hne =>
      cases h
      exact ⟨left, declarator, stem, hcode, hopen, hstem, rfl, hne, rfl⟩
  · rintro ⟨left, declarator, stem, hcode, hopen, hstem, rfl, hne, rfl⟩
    exact ⟨_, hcode, (left, declarator), Text.breakAtLast?_append hopen left, stem, hstem,
      by rw [if_neg hne]; rfl⟩

theorem readBefore_eq_some_iff :
    readBefore cs = some (returnType, convention) ↔
      Spaced ["typedef".toList, returnType, ['('], convention, ['*']] cs ∧ returnType ≠ [] ∧
        IsTrimmed returnType ∧ IsTrimmed convention ∧ '(' ∉ convention := by
  rw [readBefore_steps]
  constructor
  · rintro ⟨left, declarator, stem, hcode, hopen, hstem, hleft, hne, hconvention⟩
    obtain ⟨hreturn, hleft⟩ := Text.trim_eq_iff.1 hleft
    obtain ⟨hconv, hconvention⟩ := Text.trim_eq_iff.1 hconvention
    have hdeclarator : Spaced [convention, ['*']] declarator := by
      apply Spaced.of_trim
      rw [hstem]
      exact hconvention.append (.exact ['*'])
    refine ⟨?_, hne, hreturn, hconv, fun hmem => hopen (hdeclarator.subset (by simp) hmem)⟩
    apply Spaced.of_trim
    rw [hcode]
    exact (Spaced.exact _).append (hleft.append ((Spaced.exact ['(']).append hdeclarator))
  · rintro ⟨hspaced, hne, hreturn, hconv, hopen⟩
    obtain ⟨blank, code, hblank, rfl, hcode⟩ := Text.spaced_cons_iff.1 hspaced
    obtain ⟨left, declarator, rfl, hleft, hdeclarator⟩ :=
      (Text.spaced_around_iff [returnType]).1 hcode
    obtain ⟨stem, blank', rfl, hstem, hblank'⟩ :=
      (Text.spaced_around_iff [convention]).1 hdeclarator
    have hstar := isBlank_punctuation '*' (by simp)
    refine ⟨left, stem ++ ['*'], Text.trimStart stem, ?_, ?_, Text.trim_concat hstar stem,
      Text.trim_eq_iff.2 ⟨hreturn, hleft⟩, hne, ?_⟩
    · have htrimmed := Text.isTrimmed_cons_concat (isBlank_punctuation 't' (by simp)) hstar
        ("ypedef".toList ++ (left ++ '(' :: stem))
      refine Text.trim_eq_iff.2 ⟨by simpa using htrimmed, ?_⟩
      exact Text.spaced_cons_iff.2 ⟨blank, blank', hblank, by simp, hblank'⟩
    · have hnot := hstem.not_mem (isBlank_punctuation '(' (by simp)) (by simpa using hopen)
      simpa using hnot
    · rw [Text.trim_trimStart]
      exact Text.trim_eq_iff.2 ⟨hconv, hstem⟩

/-! ### After the name -/

/-- The steps of reading what stands after a name. -/
theorem readAfter_steps :
    readAfter cs = some (parameters, qualifiers) ↔
      ∃ inside rest stem, Text.trimStart cs = ')' :: inside ∧
        Text.trimStart inside = parameters ++ rest ∧ Enclosed parameters ∧
        Text.trim rest = stem ++ [';'] ∧ Text.trim stem = qualifiers := by
  simp only [readAfter, bind, Option.bind_eq_some_iff, Text.stripStart?_eq_some_iff,
    Text.stripEnd?_eq_some_iff]
  constructor
  · rintro ⟨inside, hinside, ⟨params, rest⟩, hcut, stem, hstem, h⟩
    cases h
    obtain ⟨hparams, henclosed⟩ := cutParentheses_eq_some_iff.1 hcut
    exact ⟨inside, rest, stem, hinside, hparams, henclosed, hstem, rfl⟩
  · rintro ⟨inside, rest, stem, hinside, hparams, henclosed, hstem, rfl⟩
    exact ⟨inside, hinside, (parameters, rest),
      cutParentheses_eq_some_iff.2 ⟨hparams, henclosed⟩, stem, hstem, rfl⟩

theorem readAfter_eq_some_iff :
    readAfter cs = some (parameters, qualifiers) ↔
      Spaced [[')'], parameters, qualifiers, [';']] cs ∧ Enclosed parameters ∧
        IsTrimmed qualifiers := by
  rw [readAfter_steps]
  constructor
  · rintro ⟨inside, rest, stem, hcs, hinside, henclosed, hstem, hqualifiers⟩
    obtain ⟨hquals, hqualifiers⟩ := Text.trim_eq_iff.1 hqualifiers
    have hrest : Spaced [qualifiers, [';']] rest := by
      apply Spaced.of_trim
      rw [hstem]
      exact hqualifiers.append (.exact [';'])
    have hall : Spaced [parameters, qualifiers, [';']] inside := by
      apply Spaced.of_trimStart
      rw [hinside]
      exact (Spaced.exact parameters).append hrest
    refine ⟨?_, henclosed, hquals⟩
    apply Spaced.of_trimStart
    rw [hcs]
    exact (Spaced.exact [')']).append hall
  · rintro ⟨hspaced, henclosed, hquals⟩
    obtain ⟨blank, inside, hblank, rfl, hinside⟩ := Text.spaced_cons_iff.1 hspaced
    obtain ⟨blank', rest, hblank', hinside, hrest⟩ := Text.spaced_cons_iff.1 hinside
    obtain ⟨stem, blank'', hrest, hstem, hblank''⟩ := (Text.spaced_around_iff [qualifiers]).1 hrest
    obtain ⟨params, rfl⟩ := List.head?_eq_some_iff.1 henclosed.opens
    refine ⟨inside, rest, Text.trimStart stem, ?_, ?_, henclosed, ?_, ?_⟩
    · rw [List.append_assoc, List.singleton_append,
        Text.trimStart_append_of_head hblank (isBlank_punctuation ')' (by simp))]
    · rw [hinside, List.append_assoc, List.cons_append,
        Text.trimStart_append_of_head hblank' (isBlank_punctuation '(' (by simp))]
    · rw [hrest, Text.trim_append (Text.spaced_nil_iff.1 hblank''),
        Text.trim_concat (isBlank_punctuation ';' (by simp))]
    · rw [Text.trim_trimStart]
      exact Text.trim_eq_iff.2 ⟨hquals, hstem⟩

/-! ### The whole definition -/

theorem ofTypedef?_eq_some_iff :
    ofTypedef? name cs = some p ↔ p.name = name ∧ p.IsProper ∧
      ∃ before after, findToken name cs = some (before, after) ∧ p.Spelt before after := by
  simp only [ofTypedef?, bind, Option.bind_eq_some_iff]
  constructor
  · rintro ⟨⟨before, after⟩, hfound, ⟨returnType, convention⟩, hbefore, ⟨parameters, qualifiers⟩,
      hafter, h⟩
    cases h
    obtain ⟨hspaced, hne, hreturn, hconv, hopen⟩ := readBefore_eq_some_iff.1 hbefore
    obtain ⟨hspaced', henclosed, hquals⟩ := readAfter_eq_some_iff.1 hafter
    exact ⟨rfl, ⟨hne, hreturn, hconv, hopen, henclosed, hquals⟩, before, after, hfound,
      ⟨hspaced, hspaced'⟩⟩
  · rintro ⟨rfl, hproper, before, after, hfound, hspelt⟩
    have hbefore := readBefore_eq_some_iff.2 ⟨hspelt.before, hproper.returnType_ne_nil,
      hproper.returnType, hproper.convention, hproper.open_not_mem⟩
    have hafter := readAfter_eq_some_iff.2
      ⟨hspelt.after, hproper.parameters, hproper.qualifiers⟩
    exact ⟨_, hfound, _, hbefore, _, hafter, rfl⟩

/-! ### The name in its definition -/

/-- A blank is no part of an identifier. -/
theorem not_isIdentifierChar_of_isBlank {c : Char} (h : Text.isBlank c) :
    isIdentifierChar c = false := by
  rw [Bool.eq_false_iff]
  intro hident
  have hrange := toNat_of_isIdentifierChar hident
  simp only [Text.isBlank, Text.blankRanges, List.any_cons, List.any_nil, Bool.or_false,
    Bool.or_eq_true, Bool.and_eq_true, decide_eq_true_eq] at h
  omega

/-- Behind a character that is no part of an identifier, nothing but blanks follows. -/
theorem all_getLast?_concat_append {c : Char} {blank : List Char} (hc : isIdentifierChar c = false)
    (hblank : AllBlank blank) (cs : List Char) :
    (cs ++ [c] ++ blank).getLast?.all (!isIdentifierChar ·) := by
  rw [List.getLast?_append, List.getLast?_concat]
  cases hlast : blank.getLast? with
  | none => simp [hc]
  | some d =>
    have hd := not_isIdentifierChar_of_isBlank (hblank d (List.mem_of_getLast? hlast))
    simp [hd]

theorem all_head?_append_cons {c : Char} {blank : List Char} (hc : isIdentifierChar c = false)
    (hblank : AllBlank blank) (cs : List Char) :
    (blank ++ [c] ++ cs).head?.all (!isIdentifierChar ·) := by
  cases blank with
  | nil => simp [hc]
  | cons d ds =>
    have hd := not_isIdentifierChar_of_isBlank (hblank d List.mem_cons_self)
    simp [hd]

/-- A name stands alone in its definition. -/
theorem Spelt.occurs (h : p.Spelt before after) :
    Occurs p.name none (before ++ p.name ++ after) before after := by
  refine ⟨rfl, ?_⟩
  obtain ⟨left, blank, rfl, -, hblank⟩ :=
    (Text.spaced_around_iff ["typedef".toList, p.returnType, ['('], p.convention]).1 h.before
  obtain ⟨blank', right, hblank', rfl, -⟩ := Text.spaced_cons_iff.1 h.after
  have hblank := Text.spaced_nil_iff.1 hblank
  have hstar := all_getLast?_concat_append (c := '*') (by decide) hblank left
  have hclose := all_head?_append_cons (c := ')') (by decide) hblank' right
  rw [standsAlone, Option.or_none, hstar, hclose, Bool.and_self]

/-- A text that consists of the pieces of a definition, with `before` and `after` on either side of
the name. -/
structure Defines (p : FunctionPointer) (cs before after : List Char) : Prop where
  eq : cs = before ++ p.name ++ after
  proper : p.IsProper
  spelt : p.Spelt before after

theorem defines_of_ofTypedef? (h : ofTypedef? name cs = some p) :
    p.name = name ∧ ∃ before after, p.Defines cs before after := by
  obtain ⟨rfl, hproper, before, after, hfound, hspelt⟩ := ofTypedef?_eq_some_iff.1 h
  exact ⟨rfl, before, after, (occurs_of_findTokenFrom hfound).eq, hproper, hspelt⟩

/-- A definition is read if its declarator is the first place where the name stands alone. -/
theorem ofTypedef?_eq_some_iff_defines (hname : IsIdentifier name) :
    ofTypedef? name cs = some p ↔ p.name = name ∧
      ∃ before after, p.Defines cs before after ∧
        ∀ pre post, Occurs name none cs pre post → before.length ≤ pre.length := by
  rw [ofTypedef?_eq_some_iff]
  constructor
  · rintro ⟨rfl, hproper, before, after, hfound, hspelt⟩
    obtain ⟨hoccurs, hfirst⟩ := (findToken_eq_some_iff hname).1 hfound
    exact ⟨rfl, before, after, ⟨hoccurs.eq, hproper, hspelt⟩, hfirst⟩
  · rintro ⟨rfl, before, after, ⟨rfl, hproper, hspelt⟩, hfirst⟩
    exact ⟨rfl, hproper, before, after,
      (findToken_eq_some_iff hname).2 ⟨hspelt.occurs, hfirst⟩, hspelt⟩

/-! ### The alias -/

/-- Of five words that are joined by spaces, the first and the third may be missing. -/
theorem intercalate_present {declarator arrow : List Char} (hdeclarator : declarator ≠ [])
    (harrow : arrow ≠ []) (hreturn : returnType ≠ []) :
    [' '].intercalate
        ([convention, declarator, qualifiers, arrow, returnType].filter (· ≠ [])) =
      (if convention = [] then [] else convention ++ [' ']) ++ declarator
        ++ (if qualifiers = [] then [] else ' ' :: qualifiers) ++ ' ' :: arrow
        ++ ' ' :: returnType := by
  by_cases hconvention : convention = [] <;> by_cases hqualifiers : qualifiers = [] <;>
    simp [hconvention, hqualifiers, hdeclarator, harrow, hreturn, List.intercalate]

/-- A type written as `using NAME = auto (CC *)PARAMS QUALS -> RET;`, where the calling convention
and the qualifiers take no space if they are missing. -/
def aliasText (p : FunctionPointer) : List Char :=
  "using ".toList ++ p.name ++ " = auto (".toList
    ++ [' '].intercalate ([p.convention, "*)".toList ++ p.parameters, p.qualifiers, "->".toList,
      p.returnType].filter (· ≠ []))
    ++ [';']

theorem usingAlias_eq (h : p.returnType ≠ []) : p.usingAlias = p.aliasText := by
  have hdeclarator : "*)".toList ++ p.parameters ≠ [] := by simp
  have harrow : "->".toList ≠ [] := by decide
  have hspaces : " -> ".toList = ' ' :: "->".toList ++ [' '] := by decide
  unfold usingAlias aliasText
  simp only [intercalate_present hdeclarator harrow h, hspaces, List.append_assoc,
    List.cons_append, List.nil_append]

end FunctionPointer

open FunctionPointer (IsIdentifier Occurs)

variable {v : Verbatim} {r : Registry} {t : Target} {pointer : Bool}

theorem dropFinalBreaks_append {c : Char} (hc : c ≠ '\n') (s : String) (cs : List Char) :
    dropFinalBreaks (s ++ .ofList (cs ++ [c])) = s ++ .ofList (cs ++ [c]) := by
  have hkeep := Text.rdropWhile_append_cons (p := (· = '\n')) (c := c) (by simpa using hc)
    (s.toList ++ cs) []
  rw [dropFinalBreaks_eq, String.toList_append, String.toList_ofList, ← List.append_assoc, hkeep]
  apply String.toList_injective
  simp

/-- A function pointer type in a module is an alias, if its definition can be read. -/
theorem Declaration.render_functionPointer (hv : v.isFunctionPointer) (hform : t.form = .module) :
    (Declaration.verbatim v).render pointer r t =
      match FunctionPointer.ofTypedef? v.name.toList v.repr.toList with
      | some p => .ok (Doc.render r.groups none v.doc ++ .ofList p.aliasText)
      | none => .error (.malformedFunctionPointer v.name v.repr) := by
  simp only [Declaration.render, Verbatim.render, hv, hform, decide_true, Bool.and_self, if_true]
  cases hread : FunctionPointer.ofTypedef? v.name.toList v.repr.toList with
  | none => rfl
  | some p =>
    have hproper := (FunctionPointer.ofTypedef?_eq_some_iff.1 hread).2.1
    simp only [← FunctionPointer.usingAlias_eq hproper.returnType_ne_nil]
    exact congrArg Except.ok (dropFinalBreaks_append (by decide) _ _)

/-- A definition becomes an alias of its pieces, with whatever blanks it is written, if its
declarator is the first place where its name stands alone. -/
theorem Declaration.render_of_defines {p : FunctionPointer} {before after : List Char}
    (hv : v.isFunctionPointer) (hform : t.form = .module) (hname : p.name = v.name.toList)
    (hident : IsIdentifier p.name) (hdefines : p.Defines v.repr.toList before after)
    (hfirst : ∀ pre post, Occurs p.name none v.repr.toList pre post →
      before.length ≤ pre.length) :
    (Declaration.verbatim v).render pointer r t =
      .ok (Doc.render r.groups none v.doc ++ .ofList p.aliasText) := by
  have hread : FunctionPointer.ofTypedef? v.name.toList v.repr.toList = some p := by
    rw [← hname]
    exact (FunctionPointer.ofTypedef?_eq_some_iff_defines hident).2
      ⟨rfl, before, after, hdefines, hfirst⟩
  rw [Declaration.render_functionPointer hv hform, hread]

/-- A callback that takes a callback. -/
def listener : Verbatim where
  name := "LPFN"
  category := some "funcpointer"
  repr := "typedef const char* (AL_APIENTRY *LPFN)(void (*cb)(int), int n) noexcept;"
  doc := none
  deprecated := none

theorem listener_rendered :
    let p : FunctionPointer :=
      { name := "LPFN".toList, returnType := "const char*".toList,
        convention := "AL_APIENTRY".toList, parameters := "(void (*cb)(int), int n)".toList,
        qualifiers := "noexcept".toList }
    let before := "typedef const char* (AL_APIENTRY *".toList
    let after := ")(void (*cb)(int), int n) noexcept;".toList
    let t : Target := .of ⟨"al.cppm"⟩ ["al"] .module
    IsIdentifier p.name ∧ p.Defines listener.repr.toList before after ∧
      (∀ pre post, Occurs p.name none listener.repr.toList pre post →
        before.length ≤ pre.length) ∧
      (Declaration.verbatim listener).render false {} t = .ok
        "using LPFN = auto (AL_APIENTRY *)(void (*cb)(int), int n) noexcept -> const char*;" := by
  intro p before after t
  have hident : IsIdentifier p.name := by decide
  have hread : FunctionPointer.ofTypedef? p.name listener.repr.toList = some p := by decide +kernel
  have hfound : FunctionPointer.findToken p.name listener.repr.toList = some (before, after) := by
    decide +kernel
  obtain ⟨-, hproper, before', after', hfound', hspelt⟩ :=
    FunctionPointer.ofTypedef?_eq_some_iff.1 hread
  rw [hfound] at hfound'
  cases hfound'
  obtain ⟨hoccurs, hfirst⟩ := (FunctionPointer.findToken_eq_some_iff hident).1 hfound
  have hdefines : p.Defines listener.repr.toList before after := ⟨hoccurs.eq, hproper, hspelt⟩
  refine ⟨hident, hdefines, hfirst, ?_⟩
  rw [Declaration.render_of_defines (by decide) rfl (by decide) hident hdefines hfirst]
  decide +kernel

/-- What becomes an alias is a definition, and the alias is one of the same pieces. Every other text
is an error that names it. A definition need not have a blank after its keyword, and its qualifiers
may be any text. -/
theorem Declaration.defines_of_render (hv : v.isFunctionPointer) (hform : t.form = .module) :
    (∀ text, (Declaration.verbatim v).render pointer r t = .ok text →
      ∃ (p : FunctionPointer) (before after : List Char), p.name = v.name.toList ∧
        p.Defines v.repr.toList before after ∧
        text = Doc.render r.groups none v.doc ++ .ofList p.aliasText) ∧
    (∀ e, (Declaration.verbatim v).render pointer r t = .error e →
      e = .malformedFunctionPointer v.name v.repr) ∧
    (IsIdentifier v.name.toList →
      ((∃ e, (Declaration.verbatim v).render pointer r t = .error e) ↔
        ¬∃ (p : FunctionPointer) (before after : List Char), p.name = v.name.toList ∧
          p.Defines v.repr.toList before after ∧
          ∀ pre post, Occurs v.name.toList none v.repr.toList pre post →
            before.length ≤ pre.length)) := by
  rw [Declaration.render_functionPointer hv hform]
  cases hread : FunctionPointer.ofTypedef? v.name.toList v.repr.toList with
  | none =>
    refine ⟨fun _ h => (nomatch h), fun e h => (Except.error.inj h).symm, fun hident => ?_⟩
    refine iff_of_true ⟨_, rfl⟩ ?_
    rintro ⟨p, before, after, hname, hdefines, hfirst⟩
    have hsome := (FunctionPointer.ofTypedef?_eq_some_iff_defines hident).2
      ⟨hname, before, after, hdefines, hfirst⟩
    rw [hread] at hsome
    cases hsome
  | some p =>
    refine ⟨fun text h => ?_, fun _ h => (nomatch h), fun hident => ?_⟩
    · obtain ⟨hname, before, after, hdefines⟩ := FunctionPointer.defines_of_ofTypedef? hread
      exact ⟨p, before, after, hname, hdefines, (Except.ok.inj h).symm⟩
    · obtain ⟨hname, before, after, hdefines, hfirst⟩ :=
        (FunctionPointer.ofTypedef?_eq_some_iff_defines hident).1 hread
      exact iff_of_false (fun ⟨_, h⟩ => nomatch h)
        fun hnone => hnone ⟨p, before, after, hname, hdefines, hfirst⟩

/-- Two declarations pass for the definition of a type, without a blank after the keyword. -/
theorem joined_definition_rendered :
    let v : Verbatim :=
      { name := "CB", category := some "funcpointer", repr := "typedefint (*CB)(void); int x;",
        doc := none, deprecated := none }
    let t : Target := .of ⟨"al.cppm"⟩ ["al"] .module
    (Declaration.verbatim v).render false {} t = .ok "using CB = auto (*)(void) ; int x -> int;" ∧
      ∃ (p : FunctionPointer) (before after : List Char), p.name = v.name.toList ∧
        p.Defines v.repr.toList before after ∧
        "using CB = auto (*)(void) ; int x -> int;" = String.ofList p.aliasText := by
  intro v t
  have hrender : (Declaration.verbatim v).render false {} t =
      .ok "using CB = auto (*)(void) ; int x -> int;" := by
    decide +kernel
  obtain ⟨p, before, after, hname, hdefines, htext⟩ :=
    (Declaration.defines_of_render (by decide) rfl).1 _ hrender
  exact ⟨hrender, p, before, after, hname, hdefines, htext.trans String.empty_append⟩

end ApiHeaders
