import ApiHeaders.Declaration.FunctionPointer
import ApiHeaders.Doc
import ApiHeaders.Error
import ApiHeaders.Registry.Basic
import ApiHeaders.Target

/-!
# Declarations as text

Each kind of declaration has a text for headers and one for modules. A command has two of each: its
prototype and its function pointer type.

## Main definitions

* `Command.prototype` and `Command.pointerType`, `Enumerant.render`, `Typedef.render` and
  `Verbatim.render` write one kind each.
* `Declaration.render` writes any declaration.
-/

namespace ApiHeaders

/-- A message as an attribute of the declared entity. -/
def deprecatedAttribute (message : String) : String :=
  "[[deprecated(\"" ++ Text.replaceChar '"' "\\\"" (Text.replaceChar '\\' "\\\\" message) ++ "\")]]"

namespace Command

/-- The list of parameters in parentheses. -/
def parameterList (c : Command) (form : Form) : String :=
  if c.parameters = [] then form.noParameters
  else "(" ++ ", ".intercalate (c.parameters.map (·.repr)) ++ ")"

/-- Whether a target can link to a command. -/
def isExported (c : Command) (t : Target) : Bool := c.exportedOn.all t.targets

/-- The prototype of a command. -/
def prototype (c : Command) (r : Registry) (t : Target) : String :=
  Doc.render r.groups none c.doc
    ++ (match c.deprecated, t.form with
      | some message, .module => deprecatedAttribute message ++ " "
      | _, _ => "")
    ++ (if c.isExported t then c.scope ++ "_API " else "")
    ++ c.returnType ++ " " ++ c.scope ++ "_APIENTRY " ++ c.name ++ c.parameterList t.form
    ++ (if c.noexcept then " " ++ c.scope ++ "_API_NOEXCEPT" else "") ++ ";"

/-- The function pointer type of a command. In a header, the types of a namespace are aligned. -/
def pointerType (c : Command) (r : Registry) (form : Form) : String :=
  let noexcept := if c.noexcept then " " ++ c.scope ++ "_API_NOEXCEPT17" else ""
  match form with
  | .header =>
    "typedef " ++ Text.padRight (r.returnWidth c.scope) c.returnType ++ " (" ++ c.scope
      ++ "_APIENTRY *" ++ c.pointerName ++ ")" ++ c.parameterList form ++ noexcept ++ ";"
  | .module =>
    "using " ++ c.pointerName ++ " = auto (" ++ c.scope ++ "_APIENTRY *)" ++ c.parameterList form
      ++ noexcept ++ " -> " ++ c.returnType ++ ";"

end Command

/-- The column of the values of macros. -/
def macroColumns : Nat := 49

/-- An enumerant: a macro in a header, a constant in a module. -/
def Enumerant.render (e : Enumerant) (r : Registry) (form : Form) : String :=
  Doc.render r.groups e.property e.doc
    ++ match form with
      | .header => Text.padRight macroColumns ("#define " ++ e.name ++ " ") ++ e.value
      | .module =>
        (e.deprecated.map fun message => deprecatedAttribute message ++ " ").getD ""
          ++ "inline constexpr auto " ++ e.name ++ " = " ++ e.value ++ ";"

/-- A type definition: as it stands in a header, an alias in a module. -/
def Typedef.render (d : Typedef) (r : Registry) (form : Form) : String :=
  Doc.render r.groups none d.doc
    ++ match form with
      | .header => d.repr
      | .module =>
        "using " ++ d.name
          ++ (d.deprecated.map fun message => " " ++ deprecatedAttribute message).getD ""
          ++ " = " ++ d.type ++ ";"

/-- Code as it stands; only a function pointer type in a module becomes an alias. -/
def Verbatim.render (v : Verbatim) (r : Registry) (form : Form) : Except Error String :=
  let doc := Doc.render r.groups none v.doc
  if form = .module && v.isFunctionPointer then
    match FunctionPointer.ofTypedef? v.name.toList v.repr.toList with
    | some p => .ok (doc ++ .ofList p.usingAlias)
    | none => .error (.malformedFunctionPointer v.name v.repr)
  else .ok (doc ++ v.repr)

/-- A text without the line feeds at its end. -/
def dropFinalBreaks (s : String) : String :=
  .ofList (s.toList.reverse.dropWhile (· = '\n')).reverse

/-- The text of a declaration, without a line feed at its end. Of a command it is the function
pointer type if `pointer` says so, and else the prototype. -/
def Declaration.render (d : Declaration) (pointer : Bool) (r : Registry) (t : Target) :
    Except Error String :=
  dropFinalBreaks <$> match d with
    | .command c => .ok (if pointer then c.pointerType r t.form else c.prototype r t)
    | .enumerant e => .ok (e.render r t.form)
    | .typedef d => .ok (d.render r t.form)
    | .verbatim v => v.render r t.form
    | .header name => .error (.headerMarker name)

end ApiHeaders
