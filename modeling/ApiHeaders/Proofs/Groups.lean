import ApiHeaders.Proofs.Contributions

/-!
# Groups and their enumerants

The members of groups are collected apart from the enumerants. An element without a value declares
no enumerant but is a member of its groups, and a member keeps the blanks around its name.

## Main definitions

* `Registry.GroupsAgree` says that members are enumerants and that enumerants are members.

## Main statements

* `Registry.enumerant_found_iff` says which enumerants a document has.
* `groups_agree_iff` says for which documents members and enumerants agree.
-/

namespace ApiHeaders

open Xml (Element)

namespace Registry

variable {root : Element} {name : String}

/-- Whether the members of groups are enumerants, and every enumerant is a member of its groups. -/
structure GroupsAgree (r : Registry) : Prop where
  members : ∀ group name, r.Lists group name → ∃ c, r.find? name = some (.enumerant c)
  groups : ∀ name c, r.find? name = some (.enumerant c) → ∀ group ∈ c.groups,
    r.Lists group c.name

/-- An enumerant that is found was declared by an element, which listed its groups. -/
theorem exists_element_of_find? {c : Enumerant}
    (h : (ofElement root).1.find? name = some (.enumerant c)) :
    c.name = name ∧ ∃ e ∈ root.childrenOf "enums" "enum", DeclaresEnumerant name e ∧
      c.groups = groupNames e ∧ ∃ written, e.attribute? "name" = some written ∧
        Text.trimmed written = c.name := by
  obtain ⟨hmem, hname⟩ := item_of_find? h
  refine ⟨hname, ?_⟩
  rcases declaration_mem_items.1 hmem with ⟨e, -, heq⟩ | ⟨s, -, e, -, heq⟩ | ⟨e, he, heq⟩
  · rcases typeItem_cases e with ⟨_, hitem⟩ | ⟨d, hitem, -, -, hkind⟩
    · cases hitem.symm.trans heq
    · cases hitem.symm.trans heq
      exact absurd rfl (hkind c)
  · rcases commandItem_cases _ e with ⟨_, hitem⟩ | ⟨_, hitem⟩ <;> cases hitem.symm.trans heq
  · have hdeclares := exists_enumerantItem_iff.1 ⟨_, heq, hname⟩
    rcases enumerantItem_cases e with ⟨_, hitem⟩ | ⟨_, written, hitem, hgroups, hwritten, htrimmed⟩
    · cases hitem.symm.trans heq
    · cases hitem.symm.trans heq
      exact ⟨e, he, hdeclares, hgroups, written, hwritten, htrimmed.symm⟩

/-- What is found under the name of an enumerant is an enumerant, as these are taken up after the
other declarations. -/
theorem enumerant_found_iff :
    (∃ c, (ofElement root).1.find? name = some (.enumerant c)) ↔
      ∃ e ∈ root.childrenOf "enums" "enum", DeclaresEnumerant name e := by
  constructor
  · rintro ⟨c, h⟩
    obtain ⟨-, e, he, hdeclares, -⟩ := exists_element_of_find? h
    exact ⟨e, he, hdeclares⟩
  · rintro ⟨e, he, hdeclares⟩
    obtain ⟨d, hd, hname⟩ := exists_enumerantItem_iff.2 hdeclares
    have hmem : d ∈ declared name (enumerantItems root) :=
      mem_declared.2 ⟨List.mem_map.2 ⟨e, he, hd⟩, hname⟩
    -- No set is a declaration, so the last declaration of the name is an enumerant.
    have hsets : declared name (setItems root) = [] := by
      refine List.eq_nil_iff_forall_not_mem.2 fun d hd => ?_
      rcases mem_setItems (mem_declared.1 hd).1 with ⟨_, heq⟩ | ⟨_, heq⟩ <;> cases heq
    obtain ⟨last, hlast⟩ : ∃ last, (declared name (enumerantItems root)).getLast? = some last :=
      ⟨_, List.getLast?_eq_some_getLast (List.ne_nil_of_mem hmem)⟩
    obtain ⟨e', -, heq⟩ := List.mem_map.1 (mem_declared.1 (List.mem_of_getLast? hlast)).1
    rcases enumerantItem_cases e' with ⟨_, hitem⟩ | ⟨c, _, hitem, -⟩
    · cases hitem.symm.trans heq
    · cases hitem.symm.trans heq
      refine ⟨c, ?_⟩
      rw [find?_ofElement, items, declared_append, declared_append, hsets, List.append_nil,
        List.getLast?_append, hlast, Option.some_or]

/-- Members and enumerants agree exactly if every element that lists groups has a name without
blanks around it, under which an enumerant is declared. If all members are enumerants, then their
names have no blanks around them, so that every enumerant is a member of its groups as well. -/
theorem groupsAgree_iff (root : Element) :
    (ofElement root).1.GroupsAgree ↔
      ∀ e ∈ root.childrenOf "enums" "enum", ∀ written, e.attribute? "name" = some written →
        groupNames e ≠ [] → Text.trimmed written = written ∧
          ∃ e' ∈ root.childrenOf "enums" "enum", DeclaresEnumerant written e' := by
  constructor
  · intro h e he written hwritten hgroups
    obtain ⟨group, hgroup⟩ := List.exists_mem_of_ne_nil _ hgroups
    have hlists : (ofElement root).1.Lists group written :=
      lists_ofElement.2 ⟨e, he, hwritten, hgroup⟩
    obtain ⟨c, hc⟩ := h.members group written hlists
    obtain ⟨hname, e', he', hdeclares, -, written', -, htrimmed⟩ := exists_element_of_find? hc
    refine ⟨?_, e', he', hdeclares⟩
    rw [← hname, ← htrimmed, Text.trimmed_trimmed]
  · intro h
    constructor
    · intro group name hlists
      obtain ⟨e, he, hwritten, hgroup⟩ := lists_ofElement.1 hlists
      exact enumerant_found_iff.2 (h e he name hwritten (List.ne_nil_of_mem hgroup)).2
    · intro name c hc group hgroup
      obtain ⟨-, e, he, -, hgroups, written, hwritten, htrimmed⟩ := exists_element_of_find? hc
      rw [hgroups] at hgroup
      have hplain := (h e he written hwritten (List.ne_nil_of_mem hgroup)).1
      exact lists_ofElement.2 ⟨e, he, hwritten.trans (congrArg some (hplain.symm.trans htrimmed)),
        hgroup⟩

end Registry

/-- Of a document that was read, the members of the groups and the enumerants agree exactly if every
element that lists groups has a name without blanks around it, under which some element declares an
enumerant. In every document the members are the names of such elements as they are written; an
enumerant is found exactly if some element declares it, with a value; and every group of an
enumerant has a member with its name, but for blanks around it. -/
theorem groups_agree_iff {document : String} {r : Registry} {warnings : List Warning}
    (h : Registry.parse document = .ok (r, warnings)) :
    ∃ root, Element.parse document = .ok root ∧
      (r.GroupsAgree ↔
        ∀ e ∈ root.childrenOf "enums" "enum", ∀ written, e.attribute? "name" = some written →
          Registry.groupNames e ≠ [] → Text.trimmed written = written ∧
            ∃ e' ∈ root.childrenOf "enums" "enum", Registry.DeclaresEnumerant written e') ∧
      (∀ group name, r.Lists group name ↔
        ∃ e ∈ root.childrenOf "enums" "enum", e.attribute? "name" = some name ∧
          group ∈ Registry.groupNames e) ∧
      (∀ name, (∃ c, r.find? name = some (.enumerant c)) ↔
        ∃ e ∈ root.childrenOf "enums" "enum", Registry.DeclaresEnumerant name e) ∧
      ∀ name c, r.find? name = some (.enumerant c) → ∀ group ∈ c.groups,
        ∃ listed, r.Lists group listed ∧ Text.trimmed listed = c.name := by
  obtain ⟨root, hroot, heq⟩ := map_eq_ok.1 h
  obtain rfl : (Registry.ofElement root).1 = r := congrArg Prod.fst heq
  refine ⟨root, hroot, Registry.groupsAgree_iff root, fun _ _ => Registry.lists_ofElement,
    fun _ => Registry.enumerant_found_iff, ?_⟩
  intro name c hc group hgroup
  obtain ⟨-, e, he, -, hgroups, written, hwritten, htrimmed⟩ :=
    Registry.exists_element_of_find? hc
  exact ⟨written, Registry.lists_ofElement.2 ⟨e, he, hwritten, hgroups ▸ hgroup⟩, htrimmed⟩

/-- A member of a group has no value, and the name of another one has blanks around it. -/
def unevenGroups : String :=
  "<registry><enums><enum name=\"AL_N\" group=\"G\"/>" ++
    "<enum name=\" AL_M \" value=\"1\" group=\"H\"/></enums></registry>"

/-- The first member is no enumerant. Nor is the second, and the enumerant that was meant is no
member of its group. -/
theorem uneven_groups_disagree :
    ∃ r warnings, Registry.parse unevenGroups = .ok (r, warnings) ∧
      r.groups.entries = [("G", ["AL_N"]), ("H", [" AL_M "])] ∧
      r.find? "AL_N" = none ∧ r.find? " AL_M " = none ∧
      (∃ c, r.find? "AL_M" = some (.enumerant c) ∧ c.groups = ["H"]) ∧
      ¬r.Lists "H" "AL_M" ∧ ¬r.GroupsAgree := by
  let c : Enumerant :=
    { name := "AL_M", value := "1", property := none, groups := ["H"], doc := none,
      deprecated := none }
  have hread : (Registry.parse unevenGroups).toOption.map (fun parsed =>
      (parsed.1.groups.entries, parsed.1.find? "AL_N", parsed.1.find? " AL_M ",
        parsed.1.find? "AL_M")) =
        some ([("G", ["AL_N"]), ("H", [" AL_M "])], none, none, some (.enumerant c)) := by
    decide +kernel
  obtain ⟨r, warnings, hparse, heq⟩ := Registry.exists_of_parse hread
  simp only [Prod.mk.injEq] at heq
  obtain ⟨hentries, hn, hspaced, hm⟩ := heq
  obtain ⟨root, -, hagree, hlists, hfound, -⟩ := groups_agree_iff hparse
  have hmember : r.Lists "G" "AL_N" :=
    ⟨["AL_N"], Table.get?_of_mem (hentries ▸ List.mem_cons_self), List.mem_cons_self⟩
  refine ⟨r, warnings, hparse, hentries, hn, hspaced, ⟨c, hm, rfl⟩, ?_, ?_⟩
  · rintro ⟨members, hgroup, hmem⟩
    have hentry : ("H", members) ∈ r.groups.entries := Table.mem_entries_iff.2 hgroup
    rw [hentries] at hentry
    obtain rfl : members = [" AL_M "] := by simpa using hentry
    exact absurd hmem (by decide)
  · rw [hagree]
    intro hall
    obtain ⟨e, he, hname, hgroup⟩ := (hlists "G" "AL_N").1 hmember
    have hdeclared := (hall e he "AL_N" hname (List.ne_nil_of_mem hgroup)).2
    obtain ⟨c', hc'⟩ := (hfound "AL_N").2 hdeclared
    cases hn.symm.trans hc'

end ApiHeaders
