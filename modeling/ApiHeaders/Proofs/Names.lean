import ApiHeaders.Proofs.Contributions

/-!
# Names of declarations

A registry that was read holds every declaration under its own name, and no name has blanks around
it. A type without a name is skipped. For commands and enumerants it is enough that something is
there which could hold a name, so that their names may be empty.

## Main statements

* `Registry.declared_found_iff` says under which names a registry holds a declaration.
* `names_usable_iff` says for which documents no name is empty.
-/

namespace ApiHeaders

open Xml (Element)

namespace Registry

variable {root : Element} {name : String} {d : Declaration}

theorem typeName?_eq_some {e : Element} (h : typeName? e = some name) :
    name ≠ "" ∧ Text.IsTrimmed name.toList := by
  obtain ⟨hmap, hne⟩ := Option.filter_eq_some_iff.1 h
  obtain ⟨written, -, rfl⟩ := Option.map_eq_some_iff.1 hmap
  exact ⟨of_decide_eq_true hne, Text.isTrimmed_trimmed written⟩

/-- A declaration is found under each name that a type, a command or an enumerant has. -/
theorem declared_found_iff :
    (∃ d, (ofElement root).1.find? name = some d) ↔
      (∃ e ∈ root.childrenOf "types" "type", typeName? e = some name) ∨
      (∃ s ∈ root.descendants "commands", ∃ e ∈ s.descendants "command",
        DeclaresCommand name e) ∨
      ∃ e ∈ root.childrenOf "enums" "enum", DeclaresEnumerant name e := by
  rw [exists_find?_iff]
  constructor
  · rintro ⟨d, hmem, hname⟩
    rcases declaration_mem_items.1 hmem with ⟨e, he, hd⟩ | ⟨s, hs, e, he, hd⟩ | ⟨e, he, hd⟩
    · exact .inl ⟨e, he, exists_typeItem_iff.1 ⟨d, hd, hname⟩⟩
    · exact .inr (.inl ⟨s, hs, e, he, exists_commandItem_iff.1 ⟨d, hd, hname⟩⟩)
    · exact .inr (.inr ⟨e, he, exists_enumerantItem_iff.1 ⟨d, hd, hname⟩⟩)
  · rintro (⟨e, he, hname⟩ | ⟨s, hs, e, he, hname⟩ | ⟨e, he, hname⟩)
    · obtain ⟨d, hd, hname⟩ := exists_typeItem_iff.2 hname
      exact ⟨d, declaration_mem_items.2 (.inl ⟨e, he, hd⟩), hname⟩
    · obtain ⟨d, hd, hname⟩ := exists_commandItem_iff.2 hname
      exact ⟨d, declaration_mem_items.2 (.inr (.inl ⟨s, hs, e, he, hd⟩)), hname⟩
    · obtain ⟨d, hd, hname⟩ := exists_enumerantItem_iff.2 hname
      exact ⟨d, declaration_mem_items.2 (.inr (.inr ⟨e, he, hd⟩)), hname⟩

/-- A declaration that is found has the name that it is found under, without blanks around it. -/
theorem name_of_find? (h : (ofElement root).1.find? name = some d) :
    d.name = name ∧ Text.IsTrimmed name.toList := by
  refine ⟨(item_of_find? h).2, ?_⟩
  rcases declared_found_iff.1 ⟨d, h⟩ with ⟨e, -, he⟩ | ⟨s, -, e, -, he⟩ | ⟨e, -, he⟩
  · exact (typeName?_eq_some he).2
  · obtain ⟨-, _, written, -, -, rfl⟩ := he
    exact Text.isTrimmed_trimmed written.allText
  · obtain ⟨-, written, -, rfl⟩ := he
    exact Text.isTrimmed_trimmed written

/-- Only commands and enumerants can be without a name. -/
theorem kind_of_find?_empty (h : (ofElement root).1.find? "" = some d) :
    d.isCommand = true ∨ ∃ c, d = .enumerant c := by
  obtain ⟨hmem, hname⟩ := item_of_find? h
  rcases declaration_mem_items.1 hmem with ⟨e, -, heq⟩ | ⟨s, -, e, -, heq⟩ | ⟨e, -, heq⟩
  · exact absurd hname (typeName?_eq_some (exists_typeItem_iff.1 ⟨d, heq, rfl⟩)).1
  · rcases commandItem_cases _ e with ⟨_, hitem⟩ | ⟨_, hitem⟩ <;> cases hitem.symm.trans heq
    exact .inl rfl
  · rcases enumerantItem_cases e with ⟨_, hitem⟩ | ⟨c, _, hitem, -⟩ <;> cases hitem.symm.trans heq
    exact .inr ⟨c, rfl⟩

end Registry

/-- A registry that was read from a document holds every declaration under its own name, which has
no blanks around it. No name is empty exactly if no command and no enumerant of the document has a
name of blanks only; a type never does. -/
theorem names_usable_iff {document : String} {r : Registry} {warnings : List Warning}
    (h : Registry.parse document = .ok (r, warnings)) :
    ∃ root, Element.parse document = .ok root ∧
      (∀ name d, (name, d) ∈ r.declarations.entries →
        d.name = name ∧ Text.IsTrimmed name.toList) ∧
      ((∀ name d, (name, d) ∈ r.declarations.entries → name ≠ "") ↔
        (∀ s ∈ root.descendants "commands", ∀ e ∈ s.descendants "command",
          ¬Registry.DeclaresCommand "" e) ∧
        ∀ e ∈ root.childrenOf "enums" "enum", ¬Registry.DeclaresEnumerant "" e) ∧
      ∀ d, ("", d) ∈ r.declarations.entries → d.isCommand = true ∨ ∃ c, d = .enumerant c := by
  obtain ⟨root, hroot, heq⟩ := map_eq_ok.1 h
  obtain rfl : (Registry.ofElement root).1 = r := congrArg Prod.fst heq
  refine ⟨root, hroot, fun name d hd => Registry.name_of_find? (Table.get?_of_mem hd), ?_,
    fun d hd => Registry.kind_of_find?_empty (Table.get?_of_mem hd)⟩
  have htype : ¬∃ e ∈ root.childrenOf "types" "type", Registry.typeName? e = some "" :=
    fun ⟨_, _, he⟩ => (Registry.typeName?_eq_some he).1 rfl
  have hempty : (∀ name d, (name, d) ∈ (Registry.ofElement root).1.declarations.entries →
      name ≠ "") ↔ ¬∃ d, (Registry.ofElement root).1.find? "" = some d := by
    constructor
    · rintro hall ⟨d, hd⟩
      exact hall "" d (Table.mem_entries_iff.2 hd) rfl
    · rintro hnone name d hd rfl
      exact hnone ⟨d, Table.get?_of_mem hd⟩
  rw [hempty, Registry.declared_found_iff, or_iff_right htype, not_or]
  simp only [not_exists, not_and]

/-- The names of a command and of an enumerant are blank. The type without a name is skipped. -/
def blankNames : String :=
  "<registry><types><type name=\" \"/></types><enums><enum name=\" \" value=\"1\"/></enums>" ++
    "<commands><command><proto>void <name/></proto></command></commands></registry>"

/-- One declaration is left, under the empty name. -/
theorem blank_names_held :
    ∃ r warnings, Registry.parse blankNames = .ok (r, warnings) ∧
      warnings = [.namelessType, .redefinition ""] ∧ r.declarations.keys = [""] ∧
      ∃ root, Element.parse blankNames = .ok root ∧
        ¬((∀ s ∈ root.descendants "commands", ∀ e ∈ s.descendants "command",
            ¬Registry.DeclaresCommand "" e) ∧
          ∀ e ∈ root.childrenOf "enums" "enum", ¬Registry.DeclaresEnumerant "" e) := by
  have hread : (Registry.parse blankNames).toOption.map (fun parsed =>
      (parsed.2, parsed.1.declarations.keys)) =
        some ([.namelessType, .redefinition ""], [""]) := by
    decide +kernel
  obtain ⟨r, warnings, hparse, heq⟩ := Registry.exists_of_parse hread
  obtain ⟨hwarnings, hkeys⟩ := Prod.mk.inj heq
  obtain ⟨root, hroot, -, hiff, -⟩ := names_usable_iff hparse
  refine ⟨r, warnings, hparse, hwarnings, hkeys, root, hroot, ?_⟩
  rw [← hiff]
  intro hall
  have hmem : "" ∈ r.declarations.keys := hkeys ▸ List.mem_cons_self
  obtain ⟨⟨name, d⟩, hd, rfl⟩ := List.mem_map.1 hmem
  exact hall _ d hd rfl

end ApiHeaders
