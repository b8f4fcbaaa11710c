import ApiHeaders.Proofs.PointerTypes

/-!
# The forms of function pointer types

A header defines the function pointer type of a command as the registry defines other function
pointer types, with the return types of a namespace filled up to one width. Both forms of a command
are written from its parts. Here the one in a header is read back, which gives the same parts, so
that it becomes the one in a module.

## Main definitions

* `Command.pointer` are the parts of a command's function pointer type.
* `Command.beforeStar` and `Command.afterName` are what stands in a header around its name.

## Main statements

* `Command.ofTypedef?_pointerType` says that the definition in a header is read back.
* `pointer_forms_agree` says that it becomes the alias in a module.
-/

namespace ApiHeaders

open FunctionPointer (Absent Enclosed IsIdentifier IsProper Occurs Spelt isIdentifierChar)
open Text (AllBlank IsTrimmed Spaced)

namespace FunctionPointer

theorem not_isBlank_of_isIdentifierChar {c : Char} (h : isIdentifierChar c) :
    Text.isBlank c = false := by
  rw [Bool.eq_false_iff]
  intro hblank
  exact Bool.false_ne_true ((not_isIdentifierChar_of_isBlank hblank).symm.trans h)

/-- An identifier has no blanks to trim off. -/
theorem IsIdentifier.isTrimmed {name : List Char} (h : IsIdentifier name) : IsTrimmed name where
  head c hc := not_isBlank_of_isIdentifierChar (h.chars c (List.mem_of_head? hc))
  last c hc := not_isBlank_of_isIdentifierChar (h.chars c (List.mem_of_getLast? hc))

end FunctionPointer

namespace Command

variable {c : Command} {r : Registry}

theorem pointerType_header (c : Command) (r : Registry) :
    c.pointerType r .header =
      "typedef " ++ Text.padRight (r.returnWidth c.scope) c.returnType ++ " (" ++ c.scope
        ++ "_APIENTRY *" ++ c.pointerName ++ ")" ++ c.parameterList .header
        ++ (if c.noexcept then " " ++ c.scope ++ "_API_NOEXCEPT17" else "") ++ ";" := rfl

theorem pointerType_module (c : Command) (r : Registry) :
    c.pointerType r .module =
      "using " ++ c.pointerName ++ " = auto (" ++ c.scope ++ "_APIENTRY *)"
        ++ c.parameterList .module
        ++ (if c.noexcept then " " ++ c.scope ++ "_API_NOEXCEPT17" else "") ++ " -> "
        ++ c.returnType ++ ";" := rfl

/-- The parts of a command's function pointer type. -/
def pointer (c : Command) : FunctionPointer where
  name := c.pointerName.toList
  returnType := c.returnType.toList
  convention := c.scope.toList ++ "_APIENTRY".toList
  parameters := (c.parameterList .header).toList
  qualifiers := if c.noexcept then c.scope.toList ++ "_API_NOEXCEPT17".toList else []

/-- What fills up the return type of a command in a header. -/
def padding (c : Command) (r : Registry) : List Char :=
  List.replicate (r.returnWidth c.scope - c.returnType.length) ' '

/-- What stands in a header before the `*` of a function pointer type. -/
def beforeStar (c : Command) (r : Registry) : List Char :=
  "typedef".toList ++ ' ' :: (c.pointer.returnType
    ++ ' ' :: (c.padding r ++ '(' :: (c.pointer.convention ++ [' '])))

/-- What stands in a header after the name of a function pointer type. -/
def afterName (c : Command) : List Char :=
  ')' :: (c.pointer.parameters
    ++ ((if c.noexcept then ' ' :: c.pointer.qualifiers else []) ++ [';']))

/-! ### The text in a header -/

theorem toList_padRight_append (columns : Nat) (s : String) (cs : List Char) :
    (Text.padRight columns s).toList ++ ' ' :: cs =
      s.toList ++ ' ' :: (List.replicate (columns - s.length) ' ' ++ cs) := by
  have hcomm (n : Nat) :
      List.replicate n ' ' ++ ' ' :: cs = ' ' :: (List.replicate n ' ' ++ cs) := by
    rw [← List.cons_append, ← List.replicate_succ, List.replicate_succ', List.append_assoc]
    rfl
  rw [Text.padRight, String.toList_append, Text.spaces, String.toList_ofList, List.append_assoc,
    hcomm]

theorem toList_pointerType_header (c : Command) (r : Registry) :
    (c.pointerType r .header).toList =
      c.beforeStar r ++ ['*'] ++ c.pointer.name ++ c.afterName := by
  have hkeyword : "typedef ".toList = "typedef".toList ++ [' '] := by decide
  have hopen : " (".toList = [' ', '('] := by decide
  have hstar : "_APIENTRY *".toList = "_APIENTRY".toList ++ [' ', '*'] := by decide
  have hclose : ")".toList = [')'] := by decide
  have hend : ";".toList = [';'] := by decide
  have hqualifiers : (if c.noexcept then " " ++ c.scope ++ "_API_NOEXCEPT17" else "").toList =
      if c.noexcept then ' ' :: c.pointer.qualifiers else [] := by
    cases hn : c.noexcept <;> simp [pointer, hn]
  unfold beforeStar afterName padding pointer
  unfold pointer at hqualifiers
  simp only [pointerType_header, String.toList_append, hqualifiers, hkeyword, hopen, hstar, hclose,
    hend, List.append_assoc, List.cons_append, List.nil_append, toList_padRight_append]

theorem spelt_pointer (c : Command) (r : Registry) :
    c.pointer.Spelt (c.beforeStar r ++ ['*']) c.afterName := by
  have hspace : AllBlank [' '] := by decide
  have hpadding : AllBlank (c.padding r) := fun d hd => by
    rw [List.eq_of_mem_replicate hd]
    rfl
  have hbefore : Spaced ["typedef".toList, c.pointer.returnType, ['('], c.pointer.convention, ['*']]
      ([] ++ "typedef".toList ++ ([' '] ++ c.pointer.returnType ++ ([' '] ++ c.padding r ++ ['(']
        ++ ([] ++ c.pointer.convention ++ ([' '] ++ ['*'] ++ []))))) :=
    .cons nofun (.cons hspace (.cons (hspace.append hpadding) (.cons nofun
      (.cons hspace (.nil nofun)))))
  have hafter : Spaced [[')'], c.pointer.parameters, c.pointer.qualifiers, [';']]
      ([] ++ [')'] ++ ([] ++ c.pointer.parameters ++
        ((if c.noexcept then [' '] else []) ++ c.pointer.qualifiers ++ ([] ++ [';'] ++ [])))) := by
    refine .cons nofun (.cons nofun (.cons ?_ (.cons nofun (.nil nofun))))
    split
    · exact hspace
    · exact nofun
  constructor
  · unfold beforeStar
    simpa only [List.append_assoc, List.cons_append, List.nil_append, List.append_nil] using hbefore
  · cases hn : c.noexcept <;> simpa [afterName, pointer, hn] using hafter

/-! ### Its pieces -/

theorem isIdentifier_convention (hscope : IsIdentifier c.scope.toList) :
    IsIdentifier c.pointer.convention := hscope.append (by decide)

theorem isProper_pointer (hscope : IsIdentifier c.scope.toList) (hne : c.returnType ≠ "")
    (hreturn : IsTrimmed c.returnType.toList) (hlist : Enclosed (c.parameterList .header).toList) :
    c.pointer.IsProper where
  returnType_ne_nil h := hne (String.toList_eq_nil_iff.1 h)
  returnType := hreturn
  convention := (isIdentifier_convention hscope).isTrimmed
  open_not_mem hmem := absurd ((isIdentifier_convention hscope).chars _ hmem) (by decide)
  parameters := hlist
  qualifiers := by
    unfold pointer
    split
    · have hqualifiers : IsIdentifier (c.scope.toList ++ "_API_NOEXCEPT17".toList) :=
        hscope.append (by decide)
      exact hqualifiers.isTrimmed
    · exact ⟨nofun, nofun⟩

/-- The name of a function pointer type does not stand alone in front of its declarator. -/
theorem absent_beforeStar (hscope : IsIdentifier c.scope.toList)
    (hname : IsIdentifier c.pointerName.toList)
    (hreturn : Absent c.pointerName.toList c.returnType.toList)
    (hkeyword : c.pointerName ≠ "typedef") (hconvention : c.pointerName ≠ c.scope ++ "_APIENTRY") :
    Absent c.pointerName.toList (c.beforeStar r) := by
  have hkeyword : Absent c.pointerName.toList "typedef".toList :=
    FunctionPointer.absent_of_ne (by decide) fun heq => hkeyword (String.toList_injective heq)
  have hconvention : Absent c.pointerName.toList c.pointer.convention :=
    FunctionPointer.absent_of_ne (isIdentifier_convention hscope) fun heq =>
      hconvention (String.toList_injective (heq.trans String.toList_append.symm))
  have hnil := FunctionPointer.absent_nil hname
  have hpadding : Absent c.pointerName.toList (c.padding r) :=
    FunctionPointer.absent_replicate hname (by decide) _
  have hspace : isIdentifierChar ' ' = false := by decide
  have hopen : isIdentifierChar '(' = false := by decide
  exact hkeyword.append_cons hname hspace (hreturn.append_cons hname hspace
    (hpadding.append_cons hname hopen (hconvention.append_cons hname hspace hnil)))

/-- The definition in a header is read back as the parts that it was made of. -/
theorem ofTypedef?_pointerType (hscope : IsIdentifier c.scope.toList)
    (hname : IsIdentifier c.pointerName.toList) (hne : c.returnType ≠ "")
    (htrimmed : IsTrimmed c.returnType.toList)
    (hlist : Enclosed (c.parameterList .header).toList)
    (hreturn : Absent c.pointerName.toList c.returnType.toList)
    (hkeyword : c.pointerName ≠ "typedef") (hconvention : c.pointerName ≠ c.scope ++ "_APIENTRY") :
    FunctionPointer.ofTypedef? c.pointerName.toList (c.pointerType r .header).toList =
      some c.pointer := by
  refine (FunctionPointer.ofTypedef?_eq_some_iff_defines hname).2 ⟨rfl, c.beforeStar r ++ ['*'],
    c.afterName, ⟨c.toList_pointerType_header r, isProper_pointer hscope hne htrimmed hlist,
      c.spelt_pointer r⟩, ?_⟩
  intro pre post h
  have habsent : Absent c.pointerName.toList (c.beforeStar r) :=
    absent_beforeStar hscope hname hreturn hkeyword hconvention
  rw [toList_pointerType_header, List.append_assoc, List.append_assoc, List.singleton_append] at h
  rcases h.of_append_cons hname (by decide) with ⟨post', h⟩ | ⟨pre', rfl, -⟩
  · exact absurd h (habsent pre post')
  · simp

theorem usingAlias_pointer (hparameters : c.parameters ≠ []) :
    c.pointer.usingAlias = (c.pointerType r .module).toList := by
  have hlist : c.parameterList .module = c.parameterList .header := by
    simp [parameterList, hparameters]
  rw [pointerType_module, hlist]
  unfold FunctionPointer.usingAlias
  cases hn : c.noexcept <;> simp [pointer, hn]

end Command

/-! ### The forms -/

/-- A function pointer type has no line feed at its end. -/
theorem Command.dropFinalBreaks_pointerType (c : Command) (r : Registry) (form : Form) :
    dropFinalBreaks (c.pointerType r form) = c.pointerType r form := by
  cases form <;> exact dropFinalBreaks_append (by decide) _ []

/-- The two forms of a command's function pointer type agree: the definition that a header has is
read back, and it becomes the alias that a module has. -/
theorem pointer_forms_agree (r : Registry) (c : Command) (hparameters : c.parameters ≠ [])
    (hscope : IsIdentifier c.scope.toList) (hname : IsIdentifier c.pointerName.toList)
    (hne : c.returnType ≠ "") (htrimmed : IsTrimmed c.returnType.toList)
    (hlist : Enclosed (c.parameterList .header).toList)
    (hreturn : Absent c.pointerName.toList c.returnType.toList)
    (hkeyword : c.pointerName ≠ "typedef") (hconvention : c.pointerName ≠ c.scope ++ "_APIENTRY") :
    (FunctionPointer.ofTypedef? c.pointerName.toList (c.pointerType r .header).toList).map
        (fun p => .ofList p.usingAlias) = some (c.pointerType r .module) ∧
    ∀ (header module : Target) (pointer : Bool), header.form = .header → module.form = .module →
      ∃ definition aliased, (Declaration.command c).render true r header = .ok definition ∧
        (Declaration.command c).render true r module = .ok aliased ∧
        (Declaration.verbatim
          { name := c.pointerName, category := some "funcpointer", repr := definition, doc := none,
            deprecated := none }).render pointer r module = .ok aliased := by
  have hread := Command.ofTypedef?_pointerType (r := r) hscope hname hne htrimmed hlist hreturn
    hkeyword hconvention
  have hproper := Command.isProper_pointer hscope hne htrimmed hlist
  have halias : .ofList c.pointer.usingAlias = c.pointerType r .module := by
    rw [Command.usingAlias_pointer hparameters, String.ofList_toList]
  have hrender (t : Target) : (Declaration.command c).render true r t =
      .ok (c.pointerType r t.form) := congrArg Except.ok (c.dropFinalBreaks_pointerType r t.form)
  refine ⟨by rw [hread, Option.map_some, halias], ?_⟩
  intro header module pointer hheader hmodule
  refine ⟨_, _, hrender header, hrender module, ?_⟩
  rw [Declaration.render_functionPointer rfl hmodule, hheader, hmodule, hread, ← halias,
    FunctionPointer.usingAlias_eq hproper.returnType_ne_nil]
  exact congrArg Except.ok String.empty_append

/-- A command that takes a callback. The name of its type is part of the name of what it returns. -/
def callbackCommand : Command where
  name := "alOnEvent"
  scope := "AL"
  returnType := "const LPALC *"
  parameters := [
    { type := "void (*)(int)", name := "callback", repr := "void (*callback)(int)" },
    { type := "ALuint", name := "n", repr := "ALuint n" }]
  pointerName := "LPAL"
  exportedOn := none
  noexcept := true
  doc := none
  deprecated := none

theorem callback_forms_agree :
    let r : Registry := { returnWidths := (∅ : Table String Nat).insert "AL" 16 }
    let definition :=
      "typedef const LPALC *    (AL_APIENTRY *LPAL)(void (*callback)(int), ALuint n) "
      ++ "AL_API_NOEXCEPT17;"
    callbackCommand.pointerType r .header = definition ∧
      (FunctionPointer.ofTypedef? "LPAL".toList definition.toList).map
        (fun p => .ofList p.usingAlias) = some ("using LPAL = auto (AL_APIENTRY *)"
          ++ "(void (*callback)(int), ALuint n) AL_API_NOEXCEPT17 -> const LPALC *;") := by
  intro r definition
  have hheader : callbackCommand.pointerType r .header = definition := by decide +kernel
  have hlist : Enclosed (callbackCommand.parameterList .header).toList := by
    have hcut : FunctionPointer.cutParentheses (callbackCommand.parameterList .header).toList =
        some ((callbackCommand.parameterList .header).toList, []) := by decide +kernel
    exact (FunctionPointer.cutParentheses_eq_some_iff.1 hcut).2
  have hagree := (pointer_forms_agree r callbackCommand (by decide) (by decide) (by decide)
    (by decide) (by decide) hlist
    (FunctionPointer.absent_of_findToken (by decide) (by decide +kernel)) (by decide)
    (by decide)).1
  refine ⟨hheader, ?_⟩
  rw [← hheader]
  exact hagree.trans (by decide +kernel)

end ApiHeaders
