import ApiHeaders.Proofs.Locality
import ApiHeaders.Proofs.Parsed
import ApiHeaders.Proofs.PointerForms

/-!
# Aligned function pointer types

In a header, the function pointer types of a namespace have their declarators in one column. Return
types are measured in bytes when their commands are added, and no width ever shrinks. So the return
types that are still in a registry fit into the widths of their namespaces, whatever commands have
been replaced, and they are never longer in characters than in bytes.

## Main definitions

* `Text.column` is the column that a text ends in.
* `Command.DeclaratorIn` says in which column of a text the declarator of a command stands.
* `Registry.Grown` says that a registry was read and then added to.
* `Registry.Wide` says that all return types fit into the widths of their namespaces.

## Main statements

* `Registry.Wide.insert` is what one declaration keeps, `Registry.Grown.wide` what all of them keep.
* `pointer_types_aligned` says that the declarators of a namespace are in one column.
-/

namespace ApiHeaders

namespace Text

/-- The column that characters end in: how many of them stand behind the last line feed. -/
def column (cs : List Char) : Nat := (cs.reverse.takeWhile (· ≠ '\n')).length

theorem column_of_not_mem {cs : List Char} (h : '\n' ∉ cs) : column cs = cs.length := by
  have hall : ∀ c ∈ cs.reverse, decide (c ≠ '\n') = true := by
    intro c hc
    rw [decide_eq_true_eq]
    rintro rfl
    exact h (List.mem_reverse.1 hc)
  rw [column, List.takeWhile_eq_self_iff.2 hall, List.length_reverse]

/-- A character takes up a byte or more. -/
theorem length_le_utf8ByteSize (s : String) : s.length ≤ s.utf8ByteSize := by
  suffices h : ∀ cs : List Char, cs.length ≤ (String.ofList cs).utf8ByteSize by
    simpa only [String.length_toList, String.ofList_toList] using h s.toList
  intro cs
  induction cs with
  | nil => exact Nat.zero_le _
  | cons c cs ih =>
    rw [String.ofList_cons, String.utf8ByteSize_append, String.utf8ByteSize_singleton,
      List.length_cons]
    have hsize : 0 < c.utf8Size := c.utf8Size_pos
    omega

end Text

/-- In a text, the declarator of a command's function pointer type stands in a column, directly
behind the keyword and the return type, which is filled up with spaces. -/
def Command.DeclaratorIn (column : Nat) (c : Command) (text : String) : Prop :=
  ∃ fill before after, before = "typedef " ++ c.returnType ++ Text.spaces fill ∧
    text = before ++ (" (" ++ c.scope ++ "_APIENTRY *") ++ after ∧
    Text.column before.toList = column

/-- A return type that fits into the width of its namespace has the declarator behind that width. -/
theorem Command.declaratorIn_pointerType {c : Command} {r : Registry}
    (hbreak : '\n' ∉ c.returnType.toList)
    (hwidth : c.returnType.utf8ByteSize ≤ r.returnWidth c.scope) :
    c.DeclaratorIn (8 + r.returnWidth c.scope) (c.pointerType r .header) := by
  refine ⟨r.returnWidth c.scope - c.returnType.length, _, c.pointerName ++ ")"
    ++ c.parameterList .header
    ++ (if c.noexcept then " " ++ c.scope ++ "_API_NOEXCEPT17" else "") ++ ";", rfl, ?_, ?_⟩
  · rw [Command.pointerType_header, Text.padRight]
    simp only [String.append_assoc]
  · have hspaces (n : Nat) : '\n' ∉ (Text.spaces n).toList := by simp [Text.spaces]
    have hkeyword : "typedef ".length = 8 := rfl
    have hle := Text.length_le_utf8ByteSize c.returnType
    rw [Text.column_of_not_mem (by simp [hbreak, hspaces]), String.length_toList,
      String.length_append, String.length_append, Text.length_spaces, hkeyword]
    omega

/-! ### Widths -/

theorem Table.mem_values_insert {κ ν : Type} [DecidableEq κ] {t : Table κ ν} {k : κ} {v w : ν}
    (h : w ∈ (t.insert k v).values) : w ∈ t.values ∨ w = v := by
  obtain ⟨entry, hentry, rfl⟩ := List.mem_map.1 h
  rcases Staged.mem_upsertEntry hentry with hold | rfl | ⟨_, -, rfl⟩
  · exact .inl (List.mem_map_of_mem hold)
  · exact .inr rfl
  · exact .inr rfl

namespace Registry

variable {r : Registry}

/-- A registry that was read from a document and has been given more declarations since. -/
inductive Grown : Registry → Prop
  | read {r : Registry} (h : r.Parsed) : Grown r
  | insert {r : Registry} (h : Grown r) (d : Declaration) : Grown (r.insert d)

/-- Whether the return type of every command that is there fits into the width of its namespace. -/
def Wide (r : Registry) : Prop :=
  ∀ c, .command c ∈ r.declarations.values → c.returnType.utf8ByteSize ≤ r.returnWidth c.scope

theorem returnWidth_le_insert (r : Registry) (d : Declaration) (scope : String) :
    r.returnWidth scope ≤ (r.insert d).returnWidth scope := by
  rw [returnWidth_insert]
  cases d with
  | command c =>
    simp only
    split
    · next hscope => exact hscope ▸ Nat.le_max_left _ _
    · exact le_rfl
  | _ => exact le_rfl

/-- A declaration that is added, or put in the place of another, fits and takes no width away. -/
theorem Wide.insert (h : r.Wide) (d : Declaration) : (r.insert d).Wide := by
  intro c hc
  rcases Table.mem_values_insert hc with hold | rfl
  · exact (h c hold).trans (r.returnWidth_le_insert d c.scope)
  · rw [returnWidth_insert]
    simp only [if_true]
    exact Nat.le_max_right _ _

theorem Wide.take (h : r.Wide) (item : Item) : (r.take item).Wide := by
  cases item with
  | declaration d => exact h.insert d
  | set | member | skipped => exact h

theorem Parsed.wide (h : r.Parsed) : r.Wide :=
  h.invariant nofun (fun _ item hr => hr.take item) fun _ _ hr => hr

theorem Grown.wide (h : r.Grown) : r.Wide := by
  induction h with
  | read h => exact h.wide
  | insert _ d ih => exact ih.insert d

end Registry

/-- The function pointer types of a namespace are aligned: in headers, those of any two commands
that a registry holds after reading and after whatever was added have their declarators in one
column, behind the keyword and the width of the namespace. -/
theorem pointer_types_aligned {r : Registry} (hr : r.Grown) {c c' : Command}
    (hc : .command c ∈ r.declarations.values) (hc' : .command c' ∈ r.declarations.values)
    (hscope : c'.scope = c.scope) (hbreak : '\n' ∉ c.returnType.toList)
    (hbreak' : '\n' ∉ c'.returnType.toList) {t : Target} (ht : t.form = .header) :
    ∃ text text', (Declaration.command c).render true r t = .ok text ∧
      (Declaration.command c').render true r t = .ok text' ∧
      c.DeclaratorIn (8 + r.returnWidth c.scope) text ∧
      c'.DeclaratorIn (8 + r.returnWidth c.scope) text' := by
  have hrender (c : Command) :
      (Declaration.command c).render true r t = .ok (c.pointerType r .header) := by
    rw [← ht]
    exact congrArg Except.ok (c.dropFinalBreaks_pointerType r t.form)
  refine ⟨_, _, hrender c, hrender c', ?_, ?_⟩
  · exact Command.declaratorIn_pointerType hbreak (hr.wide c hc)
  · rw [← hscope]
    exact Command.declaratorIn_pointerType hbreak' (hr.wide c' hc')

/-- A command without parameters. -/
def plainCommand (scope name returnType : String) : Command where
  name := name
  scope := scope
  returnType := returnType
  parameters := []
  pointerName := "LP" ++ Text.upper name
  exportedOn := none
  noexcept := false
  doc := none
  deprecated := none

/-- A document with three commands. One of their return types takes up two bytes. -/
def threeCommands : String :=
  "<registry><commands><command><proto>ß <name>f</name></proto></command>" ++
    "<command><proto>const int <name>g</name></proto></command>" ++
    "<command><proto>int <name>h</name></proto></command></commands></registry>"

/-- The column stays that of the widest return type after its command has moved to another
namespace. -/
theorem column_of_moved_command :
    ∃ r₀ warnings, Registry.parse threeCommands = .ok (r₀, warnings) ∧
      let r := r₀.insert (.command (plainCommand "ALC" "g" "int"))
      let t := Target.of ⟨"al.h"⟩ ["al"] .header
      r.declarations.values = [.command (plainCommand "AL" "f" "ß"),
        .command (plainCommand "ALC" "g" "int"), .command (plainCommand "AL" "h" "int")] ∧
      ∃ text text', (Declaration.command (plainCommand "AL" "f" "ß")).render true r t = .ok text ∧
        (Declaration.command (plainCommand "AL" "h" "int")).render true r t = .ok text' ∧
        (plainCommand "AL" "f" "ß").DeclaratorIn 17 text ∧
        (plainCommand "AL" "h" "int").DeclaratorIn 17 text' := by
  have hread : (Registry.parse threeCommands).toOption.map (fun parsed =>
      let r := parsed.1.insert (.command (plainCommand "ALC" "g" "int"))
      (r.declarations.values, r.returnWidth "AL")) =
        some ([.command (plainCommand "AL" "f" "ß"), .command (plainCommand "ALC" "g" "int"),
          .command (plainCommand "AL" "h" "int")], 9) := by
    decide +kernel
  obtain ⟨r₀, warnings, hparse, heq⟩ := Registry.exists_of_parse hread
  obtain ⟨hvalues, hwidth⟩ := Prod.mk.inj heq
  refine ⟨r₀, warnings, hparse, hvalues, ?_⟩
  have hgrown := Registry.Grown.insert (.read ⟨threeCommands, r₀, warnings, hparse, .refl ∅ r₀⟩)
    (.command (plainCommand "ALC" "g" "int"))
  have hf : .command (plainCommand "AL" "f" "ß") ∈
      (r₀.insert (.command (plainCommand "ALC" "g" "int"))).declarations.values := by
    simp [hvalues]
  have hh : .command (plainCommand "AL" "h" "int") ∈
      (r₀.insert (.command (plainCommand "ALC" "g" "int"))).declarations.values := by
    simp [hvalues]
  have hform : (Target.of ⟨"al.h"⟩ ["al"] .header).form = .header := rfl
  have haligned := pointer_types_aligned hgrown hf hh rfl (by decide) (by decide) hform
  have hscope : (plainCommand "AL" "f" "ß").scope = "AL" := rfl
  rwa [hscope, hwidth] at haligned

end ApiHeaders
