import ApiHeaders.Proofs.Parsed
import ApiHeaders.Proofs.Trimming

/-!
# What documents contribute

A registry takes up what its document contributes piece by piece. Of several declarations of one
name the last one stays, and a group keeps every member that it was given. Here both are traced
back to the elements of the document.

## Main definitions

* `Registry.declared` are the declarations of a name among items.
* `Registry.Lists` says that a group has a member.
* `Registry.DeclaresEnumerant` and `Registry.DeclaresCommand` say which names elements declare.

## Main statements

* `Registry.find?_takeAll` and `Registry.lists_takeAll` say what is there after items are taken up.
* `Registry.declaration_mem_items` and `Registry.member_mem_items` say which elements items come
  from.
-/

namespace ApiHeaders

open Xml (Element)

namespace Registry

/-! ### Taking up items -/

section Taking

variable {r : Registry} {items : List Item} {item : Item} {d : Declaration} {name group : String}

/-- The declarations of a name among items, in order. -/
def declared (name : String) : List Item → List Declaration
  | [] => []
  | .declaration d :: items =>
    if d.name = name then d :: declared name items else declared name items
  | _ :: items => declared name items

theorem mem_declared : d ∈ declared name items ↔ .declaration d ∈ items ∧ d.name = name := by
  induction items with
  | nil => simp [declared]
  | cons item items ih =>
    cases item with
    | declaration d' =>
      rw [declared]
      split <;> grind
    | set | member | skipped => simp [declared, ih]

theorem declared_append (name : String) (items items' : List Item) :
    declared name (items ++ items') = declared name items ++ declared name items' := by
  induction items with
  | nil => rfl
  | cons item items ih =>
    cases item with
    | declaration d =>
      rw [List.cons_append, declared, declared, ih]
      split <;> rfl
    | set | member | skipped => exact ih

/-- Of the declarations of a name, the last one stays. -/
theorem find?_takeAll (r : Registry) (items : List Item) (name : String) :
    (r.takeAll items).1.find? name = (declared name items).getLast?.or (r.find? name) := by
  induction items generalizing r with
  | nil => rfl
  | cons item items ih =>
    rw [takeAll, ih]
    cases item with
    | declaration d =>
      have hfind : (r.take (.declaration d)).find? name =
          if d.name = name then some d else r.find? name :=
        Table.get?_insert r.declarations d.name name d
      rw [hfind, declared]
      split
      · rw [List.getLast?_cons]
        cases (declared name items).getLast? <;> rfl
      · rfl
    | set | member | skipped => rfl

/-- Whether a group has a member. -/
def Lists (r : Registry) (group name : String) : Prop :=
  ∃ members, r.group? group = some members ∧ name ∈ members

theorem lists_take :
    (r.take item).Lists group name ↔ r.Lists group name ∨ .member group name = item := by
  cases item with
  | member other added =>
    have hgroup : (r.take (.member other added)).group? group =
        if other = group then some ((r.group? other).getD [] ++ [added]) else r.group? group :=
      Table.get?_upsert r.groups other group _
    unfold Lists
    rw [hgroup]
    by_cases hother : other = group
    · subst hother
      cases r.group? other <;> simp
    · simp [hother, Ne.symm hother]
  | declaration | set | skipped => simp [Lists, take, insert, insertSet, group?]

/-- A group keeps all members that it was given. -/
theorem lists_takeAll :
    (r.takeAll items).1.Lists group name ↔ r.Lists group name ∨ .member group name ∈ items := by
  induction items generalizing r with
  | nil => simp [takeAll]
  | cons item items ih => rw [takeAll, ih, lists_take, List.mem_cons, or_assoc]

end Taking

/-! ### The items of a document -/

section Elements

variable {e root : Element} {d : Declaration} {scope name group : String} {kind : SetKind}

/-- Whether an element declares an enumerant of a name. Blanks around the name do not count, and
there has to be a value. -/
def DeclaresEnumerant (name : String) (e : Element) : Prop :=
  (e.attribute? "value").isSome ∧
    ∃ written, e.attribute? "name" = some written ∧ Text.trimmed written = name

/-- Whether an element declares a command of a name. Blanks around the name do not count, and all
parameters have to have names. -/
def DeclaresCommand (name : String) (e : Element) : Prop :=
  (∀ parameter ∈ e.childrenNamed "param", (parameter.child? "name").isSome) ∧
    ∃ prototype written, e.child? "proto" = some prototype ∧
      prototype.child? "name" = some written ∧ Text.trimmed written.allText = name

theorem typeItem_cases (e : Element) :
    (∃ warning, typeItem e = .skipped warning) ∨
      ∃ d, typeItem e = .declaration d ∧ typeName? e = some d.name ∧ d.isCommand = false ∧
        ∀ c, d ≠ .enumerant c := by
  rw [typeItem]
  split
  · exact .inl ⟨_, rfl⟩
  · next name hname =>
    refine .inr ⟨_, rfl, ?_⟩
    split <;> exact ⟨hname, rfl, nofun⟩

theorem commandItem_cases (scope : String) (e : Element) :
    (∃ warning, commandItem scope e = .skipped warning) ∨
      ∃ c, commandItem scope e = .declaration (.command c) := by
  rw [commandItem]
  split
  · exact .inl ⟨_, rfl⟩
  · split
    · exact .inl ⟨_, rfl⟩
    · dsimp only
      split
      · exact .inl ⟨_, rfl⟩
      · exact .inr ⟨_, rfl⟩

theorem enumerantItem_cases (e : Element) :
    (∃ warning, enumerantItem e = .skipped warning) ∨
      ∃ c written, enumerantItem e = .declaration (.enumerant c) ∧ c.groups = groupNames e ∧
        e.attribute? "name" = some written ∧ c.name = Text.trimmed written := by
  rw [enumerantItem]
  split
  · next written _ hname _ => exact .inr ⟨_, written, rfl, rfl, hname, rfl⟩
  · exact .inl ⟨_, rfl⟩

theorem exists_typeItem_iff :
    (∃ d, typeItem e = .declaration d ∧ d.name = name) ↔ typeName? e = some name := by
  unfold typeItem
  cases typeName? e with
  | none => simp
  | some written =>
    simp only [Item.declaration.injEq, exists_eq_left', Option.some.injEq]
    split <;> rfl

theorem exists_enumerantItem_iff :
    (∃ d, enumerantItem e = .declaration d ∧ d.name = name) ↔ DeclaresEnumerant name e := by
  unfold enumerantItem DeclaresEnumerant
  cases e.attribute? "name" <;> cases e.attribute? "value" <;> simp [Declaration.name]

theorem isSome_mapM_iff {α β : Type} {f : α → Option β} {xs : List α} :
    (xs.mapM f).isSome ↔ ∀ x ∈ xs, (f x).isSome := by
  induction xs with
  | nil => simp
  | cons x xs ih =>
    rw [List.mapM_cons, List.forall_mem_cons, ← ih]
    cases f x <;> cases xs.mapM f <;> simp

theorem exists_commandItem_iff :
    (∃ d, commandItem scope e = .declaration d ∧ d.name = name) ↔ DeclaresCommand name e := by
  have hparameters : (∀ parameter ∈ e.childrenNamed "param", (parameter.child? "name").isSome) ↔
      ((e.childrenNamed "param").mapM parameter?).isSome := by
    rw [isSome_mapM_iff]
    simp [parameter?]
  unfold commandItem DeclaresCommand
  rw [hparameters]
  cases e.child? "proto" with
  | none => simp
  | some prototype =>
    cases hname : prototype.child? "name" with
    | none => simp [hname]
    | some written =>
      cases (e.childrenNamed "param").mapM parameter? <;> simp [hname, Declaration.name, nameText]

theorem mem_setItems {item : Item} (h : item ∈ setItems root) :
    (∃ warning, item = .skipped warning) ∨ ∃ s, item = .set s := by
  have hcases (kind : SetKind) (e : Element) :
      (∃ warning, setItem kind e = .skipped warning) ∨ ∃ s, setItem kind e = .set s := by
    rw [setItem]
    split
    · exact .inl ⟨_, rfl⟩
    · split
      · exact .inl ⟨_, rfl⟩
      · exact .inr ⟨_, rfl⟩
  rcases List.mem_append.1 h with h | h
  · obtain ⟨e, -, rfl⟩ := List.mem_map.1 h
    exact hcases .feature e
  · obtain ⟨e, -, rfl⟩ := List.mem_map.1 h
    exact hcases .extension e

/-- The declarations of a document are its types, its commands and its enumerants. -/
theorem declaration_mem_items :
    .declaration d ∈ items root ↔
      (∃ e ∈ root.childrenOf "types" "type", typeItem e = .declaration d) ∨
      (∃ s ∈ root.descendants "commands", ∃ e ∈ s.descendants "command",
        commandItem ((s.attribute? "namespace").getD defaultScope) e = .declaration d) ∨
      ∃ e ∈ root.childrenOf "enums" "enum", enumerantItem e = .declaration d := by
  have hmember : .declaration d ∉ memberItems root := by
    intro h
    obtain ⟨e, -, he⟩ := List.mem_flatMap.1 h
    rw [memberItemsOf] at he
    split at he
    · cases he
    · obtain ⟨_, -, heq⟩ := List.mem_map.1 he
      cases heq
  have hset : .declaration d ∉ setItems root := by
    intro h
    rcases mem_setItems h with ⟨_, heq⟩ | ⟨_, heq⟩ <;> cases heq
  simp only [items, List.mem_append, hmember, hset, false_or, or_false, or_assoc, typeItems,
    commandItems, commandItemsOf, enumerantItems, List.mem_map, List.mem_flatMap]

/-- The members of groups are the names of the elements that list these groups, as they are
written. -/
theorem member_mem_items :
    .member group name ∈ items root ↔
      ∃ e ∈ root.childrenOf "enums" "enum", e.attribute? "name" = some name ∧
        group ∈ groupNames e := by
  have hmember : .member group name ∈ memberItems root ↔
      ∃ e ∈ root.childrenOf "enums" "enum", e.attribute? "name" = some name ∧
        group ∈ groupNames e := by
    rw [memberItems, List.mem_flatMap]
    refine exists_congr fun e => and_congr_right fun _ => ?_
    rw [memberItemsOf]
    split
    · next hname => simp [hname]
    · next written hname => simp [hname, and_comm]
  have htype : .member group name ∉ typeItems root := by
    intro h
    obtain ⟨e, -, heq⟩ := List.mem_map.1 h
    rcases typeItem_cases e with ⟨_, hitem⟩ | ⟨_, hitem, -⟩ <;> cases hitem.symm.trans heq
  have hcommand : .member group name ∉ commandItems root := by
    intro h
    obtain ⟨s, -, hs⟩ := List.mem_flatMap.1 h
    obtain ⟨e, -, heq⟩ := List.mem_map.1 hs
    rcases commandItem_cases _ e with ⟨_, hitem⟩ | ⟨_, hitem⟩ <;> cases hitem.symm.trans heq
  have henumerant : .member group name ∉ enumerantItems root := by
    intro h
    obtain ⟨e, -, heq⟩ := List.mem_map.1 h
    rcases enumerantItem_cases e with ⟨_, hitem⟩ | ⟨_, _, hitem, -⟩ <;> cases hitem.symm.trans heq
  have hset : .member group name ∉ setItems root := by
    intro h
    rcases mem_setItems h with ⟨_, heq⟩ | ⟨_, heq⟩ <;> cases heq
  simp only [items, List.mem_append, hmember, htype, hcommand, henumerant, hset, or_false]

/-- A document's declaration of a name is the last one. -/
theorem find?_ofElement (root : Element) (name : String) :
    (ofElement root).1.find? name = (declared name (items root)).getLast? := by
  rw [ofElement, find?_takeAll]
  exact Option.or_none

/-- A declaration that is found comes from the document and has the name that it is found under. -/
theorem item_of_find? (h : (ofElement root).1.find? name = some d) :
    .declaration d ∈ items root ∧ d.name = name := by
  rw [find?_ofElement] at h
  exact mem_declared.1 (List.mem_of_getLast? h)

theorem exists_find?_iff :
    (∃ d, (ofElement root).1.find? name = some d) ↔
      ∃ d, .declaration d ∈ items root ∧ d.name = name := by
  constructor
  · rintro ⟨d, hd⟩
    exact ⟨d, item_of_find? hd⟩
  · rintro ⟨d, hd⟩
    rw [find?_ofElement]
    exact ⟨_, List.getLast?_eq_some_getLast (List.ne_nil_of_mem (mem_declared.2 hd))⟩

theorem lists_ofElement :
    (ofElement root).1.Lists group name ↔
      ∃ e ∈ root.childrenOf "enums" "enum", e.attribute? "name" = some name ∧
        group ∈ groupNames e := by
  have hnone : ¬({} : Registry).Lists group name := fun ⟨_, h, _⟩ => nomatch h
  rw [ofElement, lists_takeAll, member_mem_items, or_iff_right hnone]

end Elements

end Registry

end ApiHeaders
