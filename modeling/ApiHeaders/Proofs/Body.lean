import ApiHeaders.Proofs.Blocks
import ApiHeaders.Proofs.Parts

/-!
# The body of a set

The items of a set open and close the directives for prototypes in turn, and all lines in between
are read as long as nobody has these left out.

## Main definitions

* `Item.Sound` says what reading an item of a set relies on.
* `Item.parts` are the guards of an item, `Item.Orderly` says what their order relies on.

## Main statements

* `Item.isClear_of_mem` says that an item leaves nothing out.
* `ApiSet.matched_items` says that the guards of a set nest.
-/

namespace ApiHeaders

open Text (physicalLines)

namespace Item

variable {absent kept files : List String} {item : Item}

/-- The lines of an item that come from the registry. -/
def texts : Item → List String
  | comment text => (comment text).lines
  | block b => b.lines
  | _ => []

/-- The macro that leaves out prototypes. -/
def prototypeMacro? : Item → Option String
  | openPrototypes scope | closePrototypes scope => some (scope ++ "_NO_PROTOTYPES")
  | _ => none

/-- What reading an item relies on: the registry has no conditionals of its own. -/
def Sound (kept files : List String) (item : Item) : Prop :=
  (∀ m ∈ item.prototypeMacro?, Directive.isWord m) ∧
    ∀ line ∈ physicalLines item.texts, isPlain kept files line

theorem physicalLines_openPrototypes {scope : String}
    (h : '\n' ∉ (scope ++ "_NO_PROTOTYPES").toList) :
    physicalLines (openPrototypes scope).lines = ["#ifndef " ++ (scope ++ "_NO_PROTOTYPES")] := by
  rw [lines, String.append_assoc]
  exact Text.physicalLines_of_not_mem fun l hl => by
    rw [List.mem_singleton.1 hl, String.toList_append]
    simpa using h

theorem physicalLines_closePrototypes {scope : String}
    (h : '\n' ∉ (scope ++ "_NO_PROTOTYPES").toList) :
    physicalLines (closePrototypes scope).lines =
      ["#endif /* " ++ (scope ++ "_NO_PROTOTYPES") ++ " */", ""] := by
  have hend : "_NO_PROTOTYPES */" = "_NO_PROTOTYPES" ++ " */" := rfl
  have hline : "#endif /* " ++ scope ++ "_NO_PROTOTYPES */" =
      "#endif /* " ++ (scope ++ "_NO_PROTOTYPES") ++ " */" := by
    rw [hend]
    simp only [String.append_assoc]
  rw [lines, hline]
  apply Text.physicalLines_of_not_mem
  intro l hl
  rcases List.mem_cons.1 hl with rfl | hl
  · simpa using h
  · rw [List.mem_singleton.1 hl]
    exact List.not_mem_nil

/-- An item that is no directive of its own has plain lines. -/
theorem isPlain_of_mem (h : item.Sound kept files) (hnone : item.prototypeMacro? = none) :
    ∀ line ∈ physicalLines item.lines, isPlain kept files line := by
  cases item with
  | openPrototypes | closePrototypes => cases hnone
  | comment | block => exact h.2
  | heading =>
    have hlines : physicalLines heading.lines = heading.lines := rfl
    rw [hlines]
    simp only [lines, List.forall_mem_cons]
    exact ⟨rfl, rfl, rfl, List.forall_mem_nil _⟩
  | blank =>
    have hlines : physicalLines blank.lines = [""] := rfl
    rw [hlines]
    simp only [List.forall_mem_cons]
    exact ⟨rfl, List.forall_mem_nil _⟩

/-- All lines of an item are clear if its macro is not defined. -/
theorem isClear_of_mem (h : item.Sound kept files)
    (habsent : ∀ m ∈ item.prototypeMacro?, m ∈ absent) :
    ∀ line ∈ physicalLines item.lines, isClear absent kept files line := by
  cases hm : item.prototypeMacro? with
  | none => exact fun line hline => isClear_of_isPlain (isPlain_of_mem h hm line hline)
  | some m =>
    have hword : Directive.isWord m := h.1 m hm
    have hmem : m ∈ absent := habsent m hm
    cases item with
    | heading | comment | block | blank => cases hm
    | openPrototypes scope =>
      cases hm
      rw [physicalLines_openPrototypes (Directive.break_not_mem hword)]
      intro line hline
      rw [List.mem_singleton.1 hline, isClear, Directive.of?_ifndef hword]
      simpa [Directive.isClear] using hmem
    | closePrototypes scope =>
      cases hm
      rw [physicalLines_closePrototypes (Directive.break_not_mem hword)]
      simp only [List.forall_mem_cons]
      refine ⟨?_, rfl, List.forall_mem_nil _⟩
      rw [isClear, Directive.of?_endif]
      rfl

/-- The parts that an item is. -/
def parts : Item → List Part
  | openPrototypes scope => [.opens (scope ++ "_NO_PROTOTYPES")]
  | closePrototypes scope => [.closes (scope ++ "_NO_PROTOTYPES"), .text [""]]
  | item => [.text (physicalLines item.lines)]

/-- What the order of the directives in an item relies on: the registry closes the conditionals that
it opens. -/
structure Orderly (item : Item) : Prop where
  unbroken : ∀ m ∈ item.prototypeMacro?, '\n' ∉ m.toList
  nested : Nested (physicalLines item.texts)

theorem Sound.orderly (h : item.Sound kept files) : item.Orderly where
  unbroken m hm := Directive.break_not_mem (h.1 m hm)
  nested := nested_of_not_isConditional fun line hline => not_isConditional_of_isPlain (h.2 line hline)

theorem physicalLines_lines (h : ∀ m ∈ item.prototypeMacro?, '\n' ∉ m.toList) :
    physicalLines item.lines = item.parts.flatMap Part.lines := by
  cases item with
  | heading | comment | block | blank => simp [parts, Part.lines]
  | openPrototypes scope => exact physicalLines_openPrototypes (h _ rfl)
  | closePrototypes scope => exact physicalLines_closePrototypes (h _ rfl)

theorem physicalLines_flatMap {items : List Item}
    (h : ∀ item ∈ items, ∀ m ∈ item.prototypeMacro?, '\n' ∉ m.toList) :
    physicalLines (items.flatMap lines) = (items.flatMap parts).flatMap Part.lines := by
  induction items with
  | nil => rfl
  | cons item items ih =>
    obtain ⟨hitem, hitems⟩ := List.forall_mem_cons.1 h
    rw [List.flatMap_cons, List.flatMap_cons, List.flatMap_append, Text.physicalLines_append,
      physicalLines_lines hitem, ih hitems]

theorem matched_parts (h : item.Orderly) (hnone : item.prototypeMacro? = none) :
    Matched item.parts := by
  cases item with
  | openPrototypes | closePrototypes => cases hnone
  | heading | blank => exact .single rfl
  | comment | block => exact .single h.nested

end Item

theorem Entry.prototypeMacro?_of_mem {e : Entry} {item : Item} (h : item ∈ e.items) :
    item.prototypeMacro? = none := by
  unfold items at h
  rcases List.mem_append.1 h with h | h
  · rcases List.mem_append.1 h with h | h
    · obtain ⟨text, -, rfl⟩ := Option.map_eq_some_iff.1 (Option.mem_toList.1 h)
      rfl
    · rw [List.mem_singleton.1 h]
      rfl
  · split at h
    · rw [List.mem_singleton.1 h]
      rfl
    · cases h

theorem Entry.matched_items {e : Entry} (h : ∀ item ∈ e.items, item.Orderly) :
    Matched (e.items.flatMap Item.parts) :=
  .flatMap fun item hitem => Item.matched_parts (h item hitem) (prototypeMacro?_of_mem hitem)

/-- The prototypes of a set open and close their directives in turn. The directive that is open
already stands before them. -/
theorem matched_fencedItems (es : List Entry) (opened : Option String)
    (h : ∀ item ∈ fencedItems opened es, item.Orderly) :
    Matched (((opened.map Item.openPrototypes).toList ++ fencedItems opened es).flatMap
      Item.parts) := by
  induction es generalizing opened with
  | nil =>
    cases opened with
    | none => exact .nil
    | some scope => exact .guarded (scope ++ "_NO_PROTOTYPES") .nil
  | cons e es ih =>
    by_cases hopened : opened = some e.block.scope
    · have heq : fencedItems opened (e :: es) = e.items ++ fencedItems opened es := by
        rw [fencedItems, if_pos hopened]
      rw [heq] at h ⊢
      have hrest := ih opened fun item hitem => h item (List.mem_append_right _ hitem)
      have hitems := Entry.matched_items fun item hitem => h item (List.mem_append_left _ hitem)
      rw [hopened] at hrest ⊢
      have hall := Matched.insert hrest hitems
      rw [List.flatMap_append, List.flatMap_append]
      exact hall
    · have heq : fencedItems opened (e :: es) = (opened.map .closePrototypes).toList ++
          ([.openPrototypes e.block.scope]
            ++ (e.items ++ fencedItems (some e.block.scope) es)) := by
        rw [fencedItems, if_neg hopened]
        simp only [List.append_assoc]
      rw [heq] at h ⊢
      have hrest := ih (some e.block.scope) fun item hitem => h item (by simp [hitem])
      have hitems := Entry.matched_items (e := e) fun item hitem => h item (by simp [hitem])
      have hnext := Matched.insert hrest hitems
      rw [← List.append_assoc]
      simp only [List.flatMap_append]
      refine Matched.append ?_ hnext
      cases opened with
      | none => exact .nil
      | some scope => exact .guarded (scope ++ "_NO_PROTOTYPES") .nil

theorem Pass.matched_items {p : Pass} {kind : SetKind} {sections : List Section}
    (h : ∀ item ∈ p.items kind sections, item.Orderly) :
    Matched ((p.items kind sections).flatMap Item.parts) := by
  have hentries {es : List Entry} (hes : ∀ item ∈ es.flatMap (·.items), item.Orderly) :
      Matched ((es.flatMap (·.items)).flatMap Item.parts) := by
    rw [List.flatMap_assoc]
    exact .flatMap fun e he => Entry.matched_items fun item hitem =>
      hes item (List.mem_flatMap.2 ⟨e, he, hitem⟩)
  cases p with
  | types => exact hentries h
  | prototypes => exact matched_fencedItems _ none h
  | pointers =>
    have hrest := hentries fun item hitem => h item (List.mem_append_right _ hitem)
    simp only [items, List.flatMap_append]
    refine Matched.append ?_ hrest
    split
    · exact .single rfl
    · exact .nil

/-- The guards of a set nest. -/
theorem ApiSet.matched_items {s : ApiSet} {r : Registry} {t : Target} {items : List Item}
    (hitems : (s.items r t).result = .ok items) (h : ∀ item ∈ items, item.Orderly) :
    Matched (items.flatMap Item.parts) := by
  obtain ⟨passes, hpasses, hflatten⟩ := Logged.result_bind_eq_ok.1 hitems
  obtain rfl : passes.flatten = items := Except.ok.inj hflatten
  rw [Logged.traverse_eq_ok] at hpasses
  clear hitems hflatten
  generalize Pass.order s.kind = order at hpasses
  induction hpasses with
  | nil => exact .nil
  | @cons p pass ps passes hp _ ih =>
    obtain ⟨sections, -, hpass⟩ := Logged.result_bind_eq_ok.1 hp
    obtain rfl : p.items s.kind sections = pass := Except.ok.inj hpass
    rw [List.flatten_cons] at h ⊢
    rw [List.flatMap_append]
    exact (Pass.matched_items fun item hitem => h item (List.mem_append_left _ hitem)).append
      (ih fun item hitem => h item (List.mem_append_right _ hitem))

/-- A set closes the conditionals that it opens. -/
theorem ApiSet.nested_items {s : ApiSet} {r : Registry} {t : Target} {items : List Item}
    (hitems : (s.items r t).result = .ok items) (h : ∀ item ∈ items, item.Orderly) :
    Nested (physicalLines (items.flatMap Item.lines)) := by
  rw [Item.physicalLines_flatMap fun item hitem => (h item hitem).unbroken]
  exact (matched_items hitems h).nested

end ApiHeaders
