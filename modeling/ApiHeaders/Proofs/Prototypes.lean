import ApiHeaders.Proofs.Body
import ApiHeaders.Proofs.Breaks

/-!
# Blocks of prototypes

Prototypes that follow one another and have the same namespace stand in one block, between the
directives that leave them out on demand. Such a block is told by the line that opens it.

## Main definitions

* `PrototypeRun` is what stands in a block of prototypes, `PrototypeRun.ofEntries` cuts entries into
  runs.
* `conditionalsAfter` lists the conditionals that a line stands in.
* `Quiet` lines belong to no conditional, `Balanced` lines close those that they open.
* `prototypeScope?` reads the namespace of a block off the line that opens it.

## Main statements

* `fencedItems_eq` says that the layout of prototypes has a block for each run.
* `PrototypeRun.physicalLines_items` are the lines of a block, and `PrototypeRun.exists_of_line` finds
  the block that a line opens.
-/

namespace ApiHeaders

open Text (physicalLines)

/-! ### Parts of lists -/

/-- An element of a list that is put together belongs to one of the parts. -/
theorem exists_of_flatMap_eq {α β : Type} {f : α → List β} {l : List α} {xs ys : List β} {b : β}
    (h : l.flatMap f = xs ++ b :: ys) :
    ∃ l₁ a l₂ us vs, l = l₁ ++ a :: l₂ ∧ f a = us ++ b :: vs ∧
      xs = l₁.flatMap f ++ us ∧ ys = vs ++ l₂.flatMap f := by
  induction l generalizing xs with
  | nil => simp at h
  | cons a l ih =>
    rw [List.flatMap_cons, List.append_eq_append_iff] at h
    rcases h with ⟨us, rfl, h⟩ | ⟨us, hfa, h⟩
    · obtain ⟨l₁, c, l₂, us', vs, rfl, hc, rfl, rfl⟩ := ih h
      exact ⟨a :: l₁, c, l₂, us', vs, rfl, hc, by simp, rfl⟩
    · cases us with
      | nil =>
        have hl : l.flatMap f = [] ++ b :: ys := h.symm
        obtain ⟨l₁, c, l₂, us', vs, rfl, hc, hxs, rfl⟩ := ih hl
        obtain ⟨hl₁, rfl⟩ := List.append_eq_nil_iff.1 hxs.symm
        exact ⟨a :: l₁, c, l₂, [], vs, rfl, hc, by simp [hl₁, hfa], rfl⟩
      | cons c us =>
        obtain ⟨rfl, rfl⟩ := List.cons.inj h
        exact ⟨[], a, l, xs, us, rfl, hfa, rfl, rfl⟩

/-! ### Runs of prototypes -/

/-- Entries of one namespace that follow one another. -/
structure PrototypeRun where
  scope : String
  entries : List Entry
  entries_ne_nil : entries ≠ []
  scope_eq : ∀ e ∈ entries, e.block.scope = scope

namespace PrototypeRun

def single (e : Entry) : PrototypeRun where
  scope := e.block.scope
  entries := [e]
  entries_ne_nil := List.cons_ne_nil e []
  scope_eq := List.forall_mem_singleton.2 rfl

/-- A run with one more entry in front. -/
def cons (e : Entry) (g : PrototypeRun) (h : e.block.scope = g.scope) : PrototypeRun where
  scope := g.scope
  entries := e :: g.entries
  entries_ne_nil := List.cons_ne_nil e g.entries
  scope_eq := List.forall_mem_cons.2 ⟨h, g.scope_eq⟩

/-- Puts an entry in front of runs: into the first one, if that has the same namespace. -/
def prepend (e : Entry) : List PrototypeRun → List PrototypeRun
  | [] => [single e]
  | g :: gs => if h : e.block.scope = g.scope then cons e g h :: gs else single e :: g :: gs

/-- Cuts entries into runs. -/
def ofEntries (es : List Entry) : List PrototypeRun := es.foldr prepend []

/-- A run between the directives of its namespace. -/
def items (g : PrototypeRun) : List Item :=
  .openPrototypes g.scope :: (g.entries.flatMap (·.items) ++ [.closePrototypes g.scope])

theorem items_cons (e : Entry) (g : PrototypeRun) (h : e.block.scope = g.scope) :
    (cons e g h).items = .openPrototypes g.scope ::
      (e.items ++ (g.entries.flatMap (·.items) ++ [.closePrototypes g.scope])) := by
  simp [items, cons]

@[simp] theorem ofEntries_nil : ofEntries [] = [] := rfl

@[simp] theorem ofEntries_cons (e : Entry) (es : List Entry) :
    ofEntries (e :: es) = prepend e (ofEntries es) := rfl

theorem exists_prepend (e : Entry) (gs : List PrototypeRun) :
    ∃ g gs', prepend e gs = g :: gs' ∧ g.scope = e.block.scope := by
  cases gs with
  | nil => exact ⟨single e, [], rfl, rfl⟩
  | cons g gs =>
    rw [prepend]
    split
    · next h => exact ⟨cons e g h, gs, rfl, h.symm⟩
    · exact ⟨single e, g :: gs, rfl, rfl⟩

/-- Runs that follow one another have different namespaces. -/
theorem isChain_ofEntries (es : List Entry) :
    (ofEntries es).IsChain (·.scope ≠ ·.scope) := by
  induction es with
  | nil => exact .nil
  | cons e es ih =>
    rw [ofEntries_cons]
    cases hgs : ofEntries es with
    | nil => exact .singleton _
    | cons g gs =>
      rw [hgs] at ih
      rw [prepend]
      split
      · cases gs with
        | nil => exact .singleton _
        | cons g' gs => exact .cons_cons (List.isChain_cons_cons.1 ih).1 (List.isChain_cons_cons.1 ih).2
      · next hne => exact .cons_cons hne ih

/-- A block of the set in a run stands between its directives. -/
theorem eq_of_items_eq {g : PrototypeRun} {xs ys : List Item} {b : Block}
    (h : g.items = xs ++ .block b :: ys) :
    g.scope = b.scope ∧ ∃ us vs, g.entries.flatMap (·.items) = us ++ .block b :: vs ∧
      xs = .openPrototypes b.scope :: us ∧ ys = vs ++ [.closePrototypes b.scope] := by
  cases xs with
  | nil => cases (List.cons.inj h).1
  | cons x us =>
    obtain rfl : .openPrototypes g.scope = x := (List.cons.inj h).1
    have hrest : g.entries.flatMap (·.items) ++ [.closePrototypes g.scope] =
        us ++ .block b :: ys := (List.cons.inj h).2
    obtain rfl | ⟨vs, item, rfl⟩ := List.eq_nil_or_concat ys
    · cases (List.append_inj' hrest rfl).2
    · rw [List.concat_eq_append, ← List.cons_append, ← List.append_assoc] at hrest
      obtain ⟨hinner, hclose⟩ := List.append_inj' hrest rfl
      obtain rfl := (List.cons.inj hclose).1
      obtain ⟨e, he, hb⟩ : ∃ e ∈ g.entries, .block b ∈ e.items :=
        List.mem_flatMap.1 (hinner ▸ List.mem_append_right us List.mem_cons_self)
      have hblock : b ∈ e.items.filterMap Item.block? := List.mem_filterMap.2 ⟨_, hb, rfl⟩
      rw [Entry.filterMap_items, List.mem_singleton] at hblock
      have hscope : g.scope = b.scope := by rw [← g.scope_eq e he, hblock]
      exact ⟨hscope, us, vs, hinner, by rw [hscope], by rw [List.concat_eq_append, hscope]⟩

end PrototypeRun

/-- Below the directive of their namespace, an entry and those after it are laid out in runs. -/
theorem openPrototypes_fencedItems (e : Entry) (es : List Entry) :
    .openPrototypes e.block.scope :: (e.items ++ fencedItems (some e.block.scope) es) =
      (PrototypeRun.ofEntries (e :: es)).flatMap (·.items) := by
  induction es generalizing e with
  | nil => simp [fencedItems, PrototypeRun.prepend, PrototypeRun.items, PrototypeRun.single]
  | cons e' es ih =>
    obtain ⟨g, gs, hruns, hscope⟩ := PrototypeRun.exists_prepend e' (PrototypeRun.ofEntries es)
    have hrest := ih e'
    rw [PrototypeRun.ofEntries_cons, hruns, List.flatMap_cons] at hrest
    rw [PrototypeRun.ofEntries_cons, PrototypeRun.ofEntries_cons, hruns, fencedItems,
      PrototypeRun.prepend]
    by_cases h : e.block.scope = e'.block.scope
    · -- The entry joins the run of the next one.
      rw [PrototypeRun.items, List.cons_append] at hrest
      have hbody := (List.cons.inj hrest).2
      rw [if_pos (congrArg some h), dif_pos (h.trans hscope.symm), List.flatMap_cons,
        PrototypeRun.items_cons, h, hbody, hscope]
      simp
    · rw [if_neg (fun heq => h (Option.some.inj heq)),
        dif_neg (fun heq => h (heq.trans hscope))]
      rw [List.flatMap_cons, List.flatMap_cons, ← hrest]
      simp [PrototypeRun.items, PrototypeRun.single]

/-- Prototypes have a block for each run. -/
theorem fencedItems_eq (es : List Entry) :
    fencedItems none es = (PrototypeRun.ofEntries es).flatMap (·.items) := by
  cases es with
  | nil => rfl
  | cons e es =>
    rw [← openPrototypes_fencedItems]
    rfl

/-! ### Conditionals around lines -/

/-- The lines that opened the conditionals around the line after some others, the innermost first,
if `around` are those around the first line. -/
def conditionalsAfter (around : List String) : List String → List String
  | [] => around
  | line :: lines =>
    conditionalsAfter
      (match Directive.of? line with
        | some (.ifDefined _) | some (.ifNotDefined _) | some (.ifHolds _) => line :: around
        | some .endIf => around.tail
        | _ => around)
      lines

/-- Whether no line belongs to a conditional. -/
def Quiet (lines : List String) : Prop := ∀ line ∈ lines, isConditional line = false

instance (lines : List String) : Decidable (Quiet lines) :=
  inferInstanceAs (Decidable (∀ line ∈ lines, isConditional line = false))

/-- Whether lines close the conditionals that they open, and leave those around them open. -/
def Balanced (lines : List String) : Prop := ∀ around, conditionalsAfter around lines = around

theorem conditionalsAfter_append (around xs ys : List String) :
    conditionalsAfter around (xs ++ ys) = conditionalsAfter (conditionalsAfter around xs) ys := by
  induction xs generalizing around with
  | nil => rfl
  | cons line lines ih => rw [List.cons_append, conditionalsAfter, conditionalsAfter, ih]

theorem conditionalsAfter_ifndef (around : List String) (m : String) (lines : List String) :
    conditionalsAfter around (("#ifndef " ++ m) :: lines) =
      conditionalsAfter (("#ifndef " ++ m) :: around) lines := by
  rw [conditionalsAfter, Directive.of?_ifndef_text]

theorem Quiet.append {xs ys : List String} (hx : Quiet xs) (hy : Quiet ys) : Quiet (xs ++ ys) :=
  List.forall_mem_append.2 ⟨hx, hy⟩

theorem Quiet.flatMap {α : Type} {f : α → List String} {as : List α} (h : ∀ a ∈ as, Quiet (f a)) :
    Quiet (as.flatMap f) :=
  List.forall_mem_flatMap.2 h

theorem Balanced.append {xs ys : List String} (hx : Balanced xs) (hy : Balanced ys) :
    Balanced (xs ++ ys) := fun around => by rw [conditionalsAfter_append, hx, hy]

theorem Balanced.flatMap {α : Type} {f : α → List String} {as : List α}
    (h : ∀ a ∈ as, Balanced (f a)) : Balanced (as.flatMap f) := by
  induction as with
  | nil => exact fun _ => rfl
  | cons a as ih =>
    obtain ⟨ha, has⟩ := List.forall_mem_cons.1 h
    exact ha.append (ih has)

theorem Quiet.balanced {lines : List String} (h : Quiet lines) : Balanced lines := by
  intro around
  induction lines with
  | nil => rfl
  | cons line lines ih =>
    obtain ⟨hline, hlines⟩ := List.forall_mem_cons.1 h
    unfold isConditional at hline
    rw [conditionalsAfter]
    cases hd : Directive.of? line with
    | none => exact ih hlines
    | some d =>
      rw [hd, Option.any_some] at hline
      cases d with
      | define | undefine | load => exact ih hlines
      | ifDefined | ifNotDefined | ifHolds | elseIf | otherwise | endIf => cases hline

/-- A guard closes what it opens. -/
theorem balanced_fence (m : String) {lines : List String} (h : Balanced lines) :
    Balanced (fence m lines) := by
  intro around
  rw [fence, conditionalsAfter_ifndef, conditionalsAfter_append, h, conditionalsAfter,
    Directive.of?_endif]
  rfl

/-! ### Lines that open a block -/

/-- The namespace of the prototypes that a line opens a block for. -/
def prototypeScope? (line : String) : Option String :=
  ((Text.stripStart? "#ifndef ".toList line.toList).bind
    (Text.stripEnd? "_NO_PROTOTYPES".toList)).map .ofList

theorem prototypeScope?_eq_some_iff {line scope : String} :
    prototypeScope? line = some scope ↔ line = "#ifndef " ++ (scope ++ "_NO_PROTOTYPES") := by
  simp only [prototypeScope?, Option.map_eq_some_iff, Option.bind_eq_some_iff,
    Text.stripStart?_eq_some_iff, Text.stripEnd?_eq_some_iff]
  constructor
  · rintro ⟨cs, ⟨rest, hline, rfl⟩, rfl⟩
    apply String.toList_inj.1
    simp [hline]
  · rintro rfl
    exact ⟨scope.toList, ⟨(scope ++ "_NO_PROTOTYPES").toList, by simp, by simp⟩, by simp⟩

theorem prototypeScope?_of_not_isConditional {line : String} (h : isConditional line = false) :
    prototypeScope? line = none := by
  rw [Option.eq_none_iff_forall_ne_some]
  intro scope hscope
  rw [prototypeScope?_eq_some_iff.1 hscope, isConditional, Directive.of?_ifndef_text] at h
  cases h

theorem prototypeScope?_endif (m : String) :
    prototypeScope? ("#endif /* " ++ m ++ " */") = none := by
  rw [Option.eq_none_iff_forall_ne_some]
  intro scope hscope
  have hline := congrArg (·.toList.take 2) (prototypeScope?_eq_some_iff.1 hscope)
  simp at hline

theorem prototypeScope?_ifndef {m : String} (h : ¬"_NO_PROTOTYPES".toList <:+ m.toList) :
    prototypeScope? ("#ifndef " ++ m) = none := by
  rw [Option.eq_none_iff_forall_ne_some]
  intro scope hscope
  have hm : m.toList = scope.toList ++ "_NO_PROTOTYPES".toList := by
    simpa using congrArg String.toList (prototypeScope?_eq_some_iff.1 hscope)
  exact h ⟨scope.toList, hm.symm⟩

theorem Quiet.filterMap_prototypeScope? {lines : List String} (h : Quiet lines) :
    lines.filterMap prototypeScope? = [] :=
  List.filterMap_eq_nil_iff.2 fun line hline => prototypeScope?_of_not_isConditional (h line hline)

namespace PrototypeRun

variable {g : PrototypeRun}

/-- The lines in the block of a run. -/
def content (g : PrototypeRun) : List String :=
  physicalLines ((g.entries.flatMap (·.items)).flatMap Item.lines)

/-- The directives of a block and the lines in it. An empty line follows. -/
def lines (g : PrototypeRun) : List String := fence (g.scope ++ "_NO_PROTOTYPES") g.content ++ [""]

theorem physicalLines_items (h : '\n' ∉ g.scope.toList) :
    physicalLines (g.items.flatMap Item.lines) = g.lines := by
  have hmacro : '\n' ∉ (g.scope ++ "_NO_PROTOTYPES").toList := by simp [h]
  simp [items, lines, content, fence, Item.physicalLines_openPrototypes hmacro,
    Item.physicalLines_closePrototypes hmacro]

/-- The block of an entry stands in the block of its run. -/
theorem infix_content {e : Entry} (he : e ∈ g.entries) :
    physicalLines e.block.lines <:+: g.content := by
  have hmem : .block e.block ∈ g.entries.flatMap (·.items) :=
    List.mem_flatMap.2 ⟨e, he, by simp [Entry.items]⟩
  obtain ⟨before, after, heq⟩ := List.append_of_mem hmem
  refine ⟨physicalLines (before.flatMap Item.lines), physicalLines (after.flatMap Item.lines), ?_⟩
  simp [content, heq, Item.lines]

theorem balanced_lines (h : Quiet g.content) : Balanced g.lines := by
  have hblank : Quiet [""] := by decide
  exact (balanced_fence _ h.balanced).append hblank.balanced

theorem lines_eq (g : PrototypeRun) :
    g.lines = ("#ifndef " ++ (g.scope ++ "_NO_PROTOTYPES")) ::
      (g.content ++ ["#endif /* " ++ (g.scope ++ "_NO_PROTOTYPES") ++ " */", ""]) := by
  simp [lines, fence]

/-- Below its first line, no other block of prototypes is opened. -/
theorem filterMap_content (h : Quiet g.content) :
    (g.content ++ ["#endif /* " ++ (g.scope ++ "_NO_PROTOTYPES") ++ " */", ""]).filterMap
      prototypeScope? = [] := by
  have hblank : prototypeScope? "" = none := by decide
  rw [List.filterMap_append, h.filterMap_prototypeScope?, List.nil_append,
    List.filterMap_cons_none (prototypeScope?_endif _), List.filterMap_cons_none hblank,
    List.filterMap_nil]

theorem filterMap_lines (h : Quiet g.content) : g.lines.filterMap prototypeScope? = [g.scope] := by
  rw [lines_eq, List.filterMap_cons_some (prototypeScope?_eq_some_iff.2 rfl), filterMap_content h]

/-- A line that opens a block of prototypes is the first one of a run. -/
theorem exists_of_line {gs : List PrototypeRun} {above below xs ys : List String}
    {line scope : String}
    (habove : above.filterMap prototypeScope? = []) (hbelow : below.filterMap prototypeScope? = [])
    (hquiet : ∀ g ∈ gs, Quiet g.content)
    (h : above ++ gs.flatMap (·.lines) ++ below = xs ++ line :: ys)
    (hline : prototypeScope? line = some scope) :
    ∃ g ∈ gs, g.scope = scope ∧ ∃ rest,
      ys = g.content ++ ("#endif /* " ++ (scope ++ "_NO_PROTOTYPES") ++ " */") :: rest := by
  have hopens {part : List String} (hnone : part.filterMap prototypeScope? = []) : line ∉ part :=
    fun hmem => Option.some_ne_none scope (hline ▸ List.filterMap_eq_nil_iff.1 hnone line hmem)
  have hparts : (above :: gs.map (·.lines) ++ [below]).flatMap id = xs ++ line :: ys := by
    rw [← h]
    simp [List.flatMap_def]
  obtain ⟨l₁, part, l₂, us, vs, hl, hpart, -, rfl⟩ := exists_of_flatMap_eq hparts
  have hmem : part ∈ above :: gs.map (·.lines) ++ [below] :=
    hl ▸ List.mem_append_right _ List.mem_cons_self
  rw [id_eq] at hpart
  have hlinemem : line ∈ part := hpart ▸ List.mem_append_right us List.mem_cons_self
  simp only [List.cons_append, List.mem_cons, List.mem_append, List.mem_map, List.not_mem_nil,
    or_false] at hmem
  rcases hmem with rfl | ⟨g, hg, rfl⟩ | rfl
  · exact absurd hlinemem (hopens habove)
  · rw [lines_eq] at hpart
    cases us with
    | nil =>
      obtain ⟨hfirst, rfl⟩ := List.cons.inj hpart
      obtain rfl : g.scope = scope := by
        rw [← hfirst, prototypeScope?_eq_some_iff.2 rfl] at hline
        exact Option.some.inj hline
      exact ⟨g, hg, rfl, "" :: l₂.flatMap id, by simp⟩
    | cons u us =>
      have hrest := (List.cons.inj hpart).2
      exact absurd (hrest ▸ List.mem_append_right us List.mem_cons_self)
        (hopens (filterMap_content (hquiet g hg)))
  · exact absurd hlinemem (hopens hbelow)

end PrototypeRun

end ApiHeaders
