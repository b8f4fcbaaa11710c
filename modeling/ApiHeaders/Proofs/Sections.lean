import ApiHeaders.Registry.Document
import Mathlib.Data.List.Basic

/-!
# The order of sections

What a registry document declares is collected kind by kind, each kind from the whole tree. So the
sections of a document may come in any order, as long as those of one kind keep theirs.

## Main definitions

* `Xml.Element.Within` says that an element belongs to a tree.
* `Registry.Kind` is a kind of what documents declare, and `Registry.Kind.OccursIn` says that a tree
  declares something of it.

## Main statements

* `Xml.Element.mem_descendantsIn` says which elements are found in trees.
* `Xml.Element.flatMap_descendants_exchange` says what is found after an exchange of two trees.
* `sections_exchanged` says that the registry is the same.
-/

namespace ApiHeaders

open Xml (Element)

namespace Xml.Element

variable {tag : String} {e x y root : Element} {before after : List Element}

/-- Whether an element is the root of a tree or somewhere below it. -/
inductive Within (e : Element) : Element → Prop
  | self : Within e e
  | child {x child : Element} (hchild : child ∈ x.children) (h : Within e child) : Within e x

theorem within_iff : e.Within x ↔ e = x ∨ ∃ child ∈ x.children, e.Within child := by
  constructor
  · rintro (_ | ⟨hchild, h⟩)
    · exact .inl rfl
    · exact .inr ⟨_, hchild, h⟩
  · rintro (rfl | ⟨child, hchild, h⟩)
    · exact .self
    · exact .child hchild h

theorem descendants_eq (tag : String) (e : Element) :
    e.descendants tag = descendantsIn tag e.children := by
  cases e
  rw [descendants]

theorem descendantsIn_append (tag : String) (xs ys : List Element) :
    descendantsIn tag (xs ++ ys) = descendantsIn tag xs ++ descendantsIn tag ys := by
  induction xs with
  | nil => rw [descendantsIn, List.nil_append, List.nil_append]
  | cons x xs ih =>
    rw [List.cons_append, descendantsIn, descendantsIn, ih]
    simp only [List.append_assoc]

mutual

/-- The elements that are found below another one are those with the tag that belong to one of its
children. -/
theorem mem_descendants (x : Element) :
    e ∈ x.descendants tag ↔ e.tag = tag ∧ ∃ child ∈ x.children, e.Within child := by
  obtain ⟨_, _, _, _, children⟩ := x
  rw [descendants]
  exact mem_descendantsIn children

theorem mem_descendantsIn (es : List Element) :
    e ∈ descendantsIn tag es ↔ e.tag = tag ∧ ∃ x ∈ es, e.Within x := by
  cases es with
  | nil => simp [descendantsIn]
  | cons x es =>
    have hself : e ∈ (if x.tag = tag then [x] else []) ↔ e.tag = tag ∧ e = x := by
      split <;> grind
    rw [descendantsIn, List.mem_append, List.mem_append, hself, mem_descendants x,
      mem_descendantsIn es, List.exists_mem_cons_iff, within_iff, ← and_or_left, ← and_or_left]

end

theorem mem_descendantsIn_singleton :
    e ∈ descendantsIn tag [x] ↔ e.Within x ∧ e.tag = tag := by
  rw [mem_descendantsIn, and_comm]
  simp

instance (tag : String) (p : Element → Prop) [DecidablePred p] (x : Element) :
    Decidable (∃ e : Element, e.Within x ∧ e.tag = tag ∧ p e) :=
  decidable_of_iff (∃ e ∈ descendantsIn tag [x], p e) <| exists_congr fun _ => by
    rw [mem_descendantsIn_singleton, and_assoc]

/-- Two neighbouring trees may be exchanged if at most one of them has elements with a tag that `f`
makes anything of. -/
theorem flatMap_descendants_exchange {β : Type} (f : Element → List β)
    (hroot : root.children = before ++ x :: y :: after)
    (h : ¬((∃ e, e.Within x ∧ e.tag = tag ∧ f e ≠ []) ∧ ∃ e, e.Within y ∧ e.tag = tag ∧ f e ≠ [])) :
    (descendants tag { root with children := before ++ y :: x :: after }).flatMap f =
      (root.descendants tag).flatMap f := by
  have hnil {z : Element} (hz : ¬∃ e, e.Within z ∧ e.tag = tag ∧ f e ≠ []) :
      (descendantsIn tag [z]).flatMap f = [] := by
    rw [List.flatMap_eq_nil_iff]
    intro e he
    obtain ⟨hwithin, htag⟩ := mem_descendantsIn_singleton.1 he
    by_contra hne
    exact hz ⟨e, hwithin, htag, hne⟩
  have hsplit (z w : Element) :
      (descendantsIn tag (before ++ z :: w :: after)).flatMap f =
        (descendantsIn tag before).flatMap f ++ ((descendantsIn tag [z]).flatMap f ++
          ((descendantsIn tag [w]).flatMap f ++ (descendantsIn tag after).flatMap f)) := by
    rw [← List.singleton_append, ← List.singleton_append (x := w), descendantsIn_append,
      descendantsIn_append, descendantsIn_append]
    simp only [List.flatMap_append]
  rw [descendants_eq, descendants_eq, hroot, hsplit, hsplit]
  rcases not_and_or.1 h with hx | hy
  · rw [hnil hx, List.nil_append, List.nil_append]
  · rw [hnil hy, List.nil_append, List.nil_append]

end Xml.Element

/-! ### Kinds -/

namespace Registry

/-- A kind of what a document declares. -/
inductive Kind where
  | type
  | enumerant
  | command
  | feature
  | extension
  deriving DecidableEq, Repr

/-- Whether a tree has an element with a tag. -/
def HasTag (tag : String) (x : Element) : Prop := ∃ e : Element, e.Within x ∧ e.tag = tag

/-- Whether a tree has an element with a tag somewhere as the child of one with another tag. -/
def HasChild (parent child : String) (x : Element) : Prop :=
  ∃ e : Element, e.Within x ∧ e.tag = parent ∧ ∃ c ∈ e.children, c.tag = child

/-- Whether a tree declares something of a kind. -/
def Kind.OccursIn : Kind → Element → Prop
  | type, x => HasChild "types" "type" x
  | enumerant, x => HasChild "enums" "enum" x
  | command, x =>
    ∃ e : Element, e.Within x ∧ e.tag = "commands" ∧ ∃ c ∈ e.children, HasTag "command" c
  | feature, x => HasTag "feature" x
  | extension, x => HasChild "extensions" "extension" x

instance (tag : String) : DecidablePred (HasTag tag) := fun x =>
  decidable_of_iff (∃ e : Element, e.Within x ∧ e.tag = tag ∧ True) <| by
    simp only [and_true, HasTag]

instance (parent child : String) : DecidablePred (HasChild parent child) := fun x =>
  inferInstanceAs (Decidable (∃ e : Element, e.Within x ∧ e.tag = parent ∧
    ∃ c ∈ e.children, c.tag = child))

instance : (kind : Kind) → DecidablePred kind.OccursIn
  | .type, x => inferInstanceAs (Decidable (HasChild "types" "type" x))
  | .enumerant, x => inferInstanceAs (Decidable (HasChild "enums" "enum" x))
  | .command, x =>
    inferInstanceAs (Decidable (∃ e : Element, e.Within x ∧ e.tag = "commands" ∧
      ∃ c ∈ e.children, HasTag "command" c))
  | .feature, x => inferInstanceAs (Decidable (HasTag "feature" x))
  | .extension, x => inferInstanceAs (Decidable (HasChild "extensions" "extension" x))

section Exchange

variable {x y root : Element} {before after : List Element}

theorem childrenOf_exchange (parent child : String)
    (hroot : root.children = before ++ x :: y :: after)
    (h : ¬(HasChild parent child x ∧ HasChild parent child y)) :
    Element.childrenOf { root with children := before ++ y :: x :: after } parent child =
      root.childrenOf parent child := by
  have hchild {z : Element}
      (hz : ∃ e : Element, e.Within z ∧ e.tag = parent ∧ e.childrenNamed child ≠ []) :
      HasChild parent child z := by
    obtain ⟨e, hwithin, htag, hne⟩ := hz
    obtain ⟨c, hc⟩ := List.exists_mem_of_ne_nil _ hne
    obtain ⟨hmem, hctag⟩ := List.mem_filter.1 hc
    exact ⟨e, hwithin, htag, c, hmem, of_decide_eq_true hctag⟩
  exact Element.flatMap_descendants_exchange (·.childrenNamed child) hroot
    fun hboth => h (hboth.imp hchild hchild)

theorem features_exchange (hroot : root.children = before ++ x :: y :: after)
    (h : ¬(Kind.feature.OccursIn x ∧ Kind.feature.OccursIn y)) :
    Element.descendants "feature" { root with children := before ++ y :: x :: after } =
      root.descendants "feature" := by
  have hfeature {z : Element} (hz : ∃ e : Element, e.Within z ∧ e.tag = "feature" ∧ [e] ≠ []) :
      Kind.feature.OccursIn z := by
    obtain ⟨e, hwithin, htag, -⟩ := hz
    exact ⟨e, hwithin, htag⟩
  have hexchange := Element.flatMap_descendants_exchange ([·]) hroot
    fun hboth => h (hboth.imp hfeature hfeature)
  simpa only [List.flatMap_singleton'] using hexchange

theorem commandItems_exchange (hroot : root.children = before ++ x :: y :: after)
    (h : ¬(Kind.command.OccursIn x ∧ Kind.command.OccursIn y)) :
    commandItems { root with children := before ++ y :: x :: after } = commandItems root := by
  have hcommand {z : Element}
      (hz : ∃ e : Element, e.Within z ∧ e.tag = "commands" ∧ commandItemsOf e ≠ []) :
      Kind.command.OccursIn z := by
    obtain ⟨e, hwithin, htag, hne⟩ := hz
    obtain ⟨item, hitem⟩ := List.exists_mem_of_ne_nil _ hne
    obtain ⟨d, hd, -⟩ := List.mem_map.1 hitem
    obtain ⟨hdtag, c, hc, hdc⟩ := (Element.mem_descendants e).1 hd
    exact ⟨e, hwithin, htag, c, hc, d, hdc, hdtag⟩
  exact Element.flatMap_descendants_exchange commandItemsOf hroot
    fun hboth => h (hboth.imp hcommand hcommand)

end Exchange

end Registry

/-- Sections may come in any order: if two neighbouring sections of a document declare nothing of
the same kind, exchanging them changes neither the registry nor what there is to say about it. -/
theorem sections_exchanged {root x y : Element} {before after : List Element}
    (hroot : root.children = before ++ x :: y :: after)
    (h : ∀ kind : Registry.Kind, ¬(kind.OccursIn x ∧ kind.OccursIn y)) :
    Registry.ofElement { root with children := before ++ y :: x :: after } =
      Registry.ofElement root := by
  have henums := Registry.childrenOf_exchange "enums" "enum" hroot (h .enumerant)
  have htypes := Registry.childrenOf_exchange "types" "type" hroot (h .type)
  have hextensions := Registry.childrenOf_exchange "extensions" "extension" hroot (h .extension)
  have hitems : Registry.items { root with children := before ++ y :: x :: after } =
      Registry.items root := by
    simp only [Registry.items, Registry.memberItems, Registry.typeItems, Registry.enumerantItems,
      Registry.setItems, henums, htypes, hextensions, Registry.commandItems_exchange hroot
      (h .command), Registry.features_exchange hroot (h .feature)]
  rw [Registry.ofElement, Registry.ofElement, hitems]

/-- A section with a command. It has a feature inside. -/
def commandSection : Element where
  tag := "commands"
  children := [
    { tag := "command", children := [{ tag := "proto", text := "int ", children := [
      { tag := "name", text := "f" }] }] },
    { tag := "feature", attributes := [⟨"name", "A"⟩, ⟨"api", "al"⟩] }]

/-- A section with an enumerant of a group. It has a type inside. -/
def constantSection : Element where
  tag := "enums"
  children := [
    { tag := "enum", attributes := [⟨"name", "AL_N"⟩, ⟨"value", "1"⟩, ⟨"group", "G"⟩] },
    { tag := "types", children := [{ tag := "type", attributes := [⟨"name", "T"⟩] }] }]

/-- Two sections with something else inside may be exchanged, between others. -/
theorem inner_sections_exchanged :
    let first : Element := { tag := "comment" }
    let last : Element := { tag := "enums", children := [
      { tag := "enum", attributes := [⟨"name", "AL_M"⟩, ⟨"value", "2"⟩, ⟨"group", "G"⟩] }] }
    let root : Element :=
      { tag := "registry", children := [first, commandSection, constantSection, last] }
    (∀ kind : Registry.Kind, ¬(kind.OccursIn commandSection ∧ kind.OccursIn constantSection)) ∧
      (Registry.ofElement root).1.declarations.keys = ["T", "f", "AL_N", "AL_M"] ∧
      Registry.ofElement
          { root with children := [first, constantSection, commandSection, last] } =
        Registry.ofElement root := by
  intro first last root
  have hkinds (kind : Registry.Kind) :
      ¬(kind.OccursIn commandSection ∧ kind.OccursIn constantSection) := by
    cases kind <;> decide +kernel
  exact ⟨hkinds, by decide +kernel,
    @sections_exchanged root commandSection constantSection [first] [last] rfl hkinds⟩

end ApiHeaders
