import ApiHeaders.Proofs.Success
import ApiHeaders.Xml.Document
import Mathlib.Data.List.Forall2

/-!
# Trees as sequences of events

Written down event by event, the tree of a document is the first element of the document: nothing is
lost, doubled or moved, and nothing outside that element matters.

## Main definitions

* `Event.merged` joins neighbouring texts and drops empty ones.
* `Event.firstElement` are the events of the first element, from its start to its end.
* `Element.flatten` writes a tree as events.
* `Markup.Means` lists the events of a piece of a document.
* `Builder.Follows` says what a builder inside the first element has read.

## Main statements

* `Builder.foldl_flatten` builds a tree from its events.
* `Builder.Follows.run` says what is read when the first element has ended.
* `parse_flatten` compares a document with its tree.
-/

namespace ApiHeaders.Xml

variable {e child : Element} {event : Event} {events events' xs ys : List Event} {s s' : String}
  {b : Builder} {n : Nat} {root : Element} {outer : List Element}

namespace Event

/-! ### Sequences of events -/

/-- Puts an event before others. Empty text is dropped, and text is joined to the text after it. -/
def joined : Event → List Event → List Event
  | .text s, .text s' :: events => .text (s ++ s') :: events
  | .text s, events => if s = "" then events else .text s :: events
  | event, events => event :: events

/-- Events without empty texts, neighbouring texts joined. -/
def merged (events : List Event) : List Event := events.foldr joined []

/-- The character data of events. -/
def characters : List Event → String
  | [] => ""
  | .text s :: events => s ++ characters events
  | _ :: events => characters events

/-- The events up to the end of an element in which `depth` others are open. -/
def throughEnd (depth : Nat) : List Event → List Event
  | [] => []
  | .start tag attributes :: events => .start tag attributes :: throughEnd (depth + 1) events
  | .text s :: events => .text s :: throughEnd depth events
  | .stop :: events =>
    match depth with
    | 0 => [.stop]
    | depth + 1 => .stop :: throughEnd depth events

/-- The events of the first element, from its start to its end. -/
def firstElement : List Event → List Event
  | [] => []
  | .start tag attributes :: events => .start tag attributes :: throughEnd 0 events
  | _ :: events => firstElement events

/-- Text is joined to a text that follows, or stands for itself unless it is empty. -/
theorem joined_text_cases (events : List Event) :
    (∃ t rest, events = .text t :: rest ∧
      ∀ s, joined (.text s) events = .text (s ++ t) :: rest) ∨
    ∀ s, joined (.text s) events = if s = "" then events else .text s :: events := by
  cases events with
  | nil => exact .inr fun _ => rfl
  | cons event rest =>
    cases event with
    | text t => exact .inl ⟨t, rest, rfl, fun _ => rfl⟩
    | start tag attributes => exact .inr fun _ => rfl
    | stop => exact .inr fun _ => rfl

@[simp] theorem joined_empty (events : List Event) : joined (.text "") events = events := by
  rcases joined_text_cases events with ⟨t, rest, rfl, h⟩ | h
  · rw [h, String.empty_append]
  · rw [h, if_pos rfl]

theorem joined_text_text (s s' : String) (events : List Event) :
    joined (.text s) (joined (.text s') events) = joined (.text (s ++ s')) events := by
  rcases joined_text_cases events with ⟨t, rest, rfl, h⟩ | h
  · rw [h, h, String.append_assoc]
    rfl
  · by_cases hs : s' = ""
    · rw [hs, joined_empty, String.append_empty]
    · have hne : s ++ s' ≠ "" := fun h => hs (String.append_eq_empty_iff.1 h).2
      rw [h, h, if_neg hs, if_neg hne]
      rfl

theorem foldr_joined (event : Event) (xs ys : List Event) :
    (joined event xs).foldr joined ys = joined event (xs.foldr joined ys) := by
  cases event with
  | text s =>
    rcases joined_text_cases xs with ⟨t, rest, rfl, h⟩ | h
    · rw [h]
      exact (joined_text_text s t _).symm
    · rw [h]
      split
      · next hs => rw [hs, joined_empty]
      · rfl
  | start tag attributes => rfl
  | stop => rfl

theorem merged_cons (event : Event) (events : List Event) :
    merged (event :: events) = joined event (merged events) := rfl

theorem merged_append (xs ys : List Event) :
    merged (xs ++ ys) = (merged xs).foldr joined (merged ys) := by
  induction xs with
  | nil => rfl
  | cons x xs ih => rw [List.cons_append, merged_cons, merged_cons, foldr_joined, ih]

theorem merged_append_congr {xs' ys' : List Event} (hx : merged xs = merged xs')
    (hy : merged ys = merged ys') : merged (xs ++ ys) = merged (xs' ++ ys') := by
  rw [merged_append, merged_append, hx, hy]

/-- A text in two parts is one text. -/
theorem merged_text_text (xs : List Event) (s s' : String) (ys : List Event) :
    merged (xs ++ .text s :: .text s' :: ys) = merged (xs ++ .text (s ++ s') :: ys) :=
  merged_append_congr rfl (joined_text_text s s' (merged ys))

theorem merged_append_empty (xs : List Event) : merged (xs ++ [.text ""]) = merged xs := by
  rw [merged_append]
  exact (merged_append xs []).symm.trans (congrArg merged xs.append_nil)

theorem characters_append (xs ys : List Event) :
    characters (xs ++ ys) = characters xs ++ characters ys := by
  induction xs with
  | nil => exact String.empty_append.symm
  | cons x xs ih =>
    cases x with
    | text s => rw [List.cons_append, characters, characters, ih, String.append_assoc]
    | start tag attributes => exact ih
    | stop => exact ih

theorem characters_joined (event : Event) (events : List Event) :
    characters (joined event events) = characters (event :: events) := by
  cases event with
  | text s =>
    rcases joined_text_cases events with ⟨t, rest, rfl, h⟩ | h
    · rw [h]
      exact String.append_assoc
    · rw [h]
      split
      · next hs => rw [hs, characters, String.empty_append]
      · rfl
  | start tag attributes => rfl
  | stop => rfl

@[simp] theorem characters_merged (events : List Event) :
    characters (merged events) = characters events := by
  induction events with
  | nil => rfl
  | cons event events ih =>
    rw [merged_cons, characters_joined]
    cases event with
    | text s => rw [characters, characters, ih]
    | start tag attributes => exact ih
    | stop => exact ih

end Event

/-! ### Trees as events -/

namespace Element

mutual

/-- The events of an element, from its start to its end. -/
def flatten : Element → List Event
  | ⟨tag, attributes, text, _, children⟩ =>
    .start tag attributes :: .text text :: flattenAll children ++ [.stop]

/-- The events of neighbouring elements, each with its tail. -/
def flattenAll : List Element → List Event
  | [] => []
  | e :: es => flatten e ++ .text e.tail :: flattenAll es

end

/-- The events of an element up to the end of its last child's tail. -/
def begun (e : Element) : List Event :=
  .start e.tag e.attributes :: .text e.text :: flattenAll e.children

theorem flatten_eq (e : Element) : e.flatten = e.begun ++ [.stop] := by
  cases e
  rw [flatten, begun]

theorem flattenAll_concat (es : List Element) (e : Element) :
    flattenAll (es ++ [e]) = flattenAll es ++ e.flatten ++ [.text e.tail] := by
  induction es with
  | nil => rfl
  | cons first es ih =>
    rw [List.cons_append, flattenAll, flattenAll, ih]
    simp only [List.append_assoc, List.cons_append]

mutual

/-- The character data of an element is its whole text. -/
theorem characters_flatten : ∀ e : Element, Event.characters e.flatten = e.allText
  | ⟨tag, attributes, text, tail, children⟩ => by
    have hchildren := characters_flattenAll children
    have hstart (events : List Event) :
        Event.characters (.start tag attributes :: .text text :: events) =
          text ++ Event.characters events := rfl
    rw [flatten, allText, innerText, ← hchildren, List.cons_append, List.cons_append, hstart,
      Event.characters_append]
    exact congrArg (text ++ ·) String.append_empty

theorem characters_flattenAll :
    ∀ es : List Element, Event.characters (flattenAll es) = innerTexts (fun _ => true) es
  | [] => rfl
  | e :: es => by
    rw [flattenAll, innerTexts, Event.characters_append, Event.characters, characters_flatten e,
      characters_flattenAll es, if_pos rfl, allText, String.append_assoc]

end

theorem begun_addChild (e child : Element) :
    (e.addChild child).begun = e.begun ++ child.flatten ++ [.text child.tail] := by
  rw [begun, addChild, flattenAll_concat]
  simp only [begun, List.cons_append, List.append_assoc]

/-- The children are empty, or there is a last one. -/
theorem addText_cases (e : Element) (s : String) :
    (e.children = [] ∧ e.addText s = { e with text := e.text ++ s }) ∨
      ∃ es last, e.children = es ++ [last] ∧
        e.addText s = { e with children := es ++ [{ last with tail := last.tail ++ s }] } := by
  rcases List.eq_nil_or_concat e.children with hnil | ⟨es, last, hlast⟩
  · refine .inl ⟨hnil, ?_⟩
    rw [addText, hnil]
    rfl
  · rw [List.concat_eq_append] at hlast
    refine .inr ⟨es, last, hlast, ?_⟩
    rw [addText, hlast, List.getLast?_concat, List.dropLast_concat]

@[simp] theorem addText_empty (e : Element) : e.addText "" = e := by
  rcases addText_cases e "" with ⟨-, h⟩ | ⟨es, last, hlast, h⟩
  · cases e
    rw [h, String.append_empty]
  · cases e
    cases last
    rw [h, String.append_empty]
    exact congrArg _ hlast.symm

theorem addText_addText (e : Element) (s s' : String) :
    (e.addText s).addText s' = e.addText (s ++ s') := by
  rcases addText_cases e s with ⟨hnil, h⟩ | ⟨es, last, hlast, h⟩
  · rw [h, addText, addText, hnil]
    simp only [List.getLast?_nil, String.append_assoc]
  · rw [h, addText, addText, hlast]
    simp only [List.getLast?_concat, List.dropLast_concat, String.append_assoc]

theorem tail_addText (e : Element) (s : String) : (e.addText s).tail = e.tail := by
  rcases addText_cases e s with ⟨-, h⟩ | ⟨es, last, -, h⟩ <;> rw [h]

/-- Text inside an element comes after what is there. -/
theorem merged_begun_addText (e : Element) (s : String) :
    Event.merged (e.addText s).begun = Event.merged (e.begun ++ [.text s]) := by
  rcases addText_cases e s with ⟨hnil, h⟩ | ⟨es, last, hlast, h⟩
  · rw [h, begun, begun, hnil]
    exact (Event.merged_text_text [.start e.tag e.attributes] e.text s []).symm
  · have hflatten : ({ last with tail := last.tail ++ s } : Element).flatten = last.flatten := by
      rw [flatten_eq, flatten_eq]
      rfl
    have hbegun (s : String) : .start e.tag e.attributes :: .text e.text ::
        (flattenAll es ++ last.flatten ++ [.text s]) =
        (.start e.tag e.attributes :: .text e.text :: (flattenAll es ++ last.flatten)) ++
          [.text s] := rfl
    rw [h, begun, begun, hlast, flattenAll_concat, flattenAll_concat, hflatten, hbegun, hbegun,
      List.append_assoc _ [_] [_]]
    exact (Event.merged_text_text _ last.tail s []).symm

end Element

/-! ### Building -/

namespace Builder

@[simp] theorem step_empty (b : Builder) : b.step (.text "") = b := by
  obtain ⟨openElements, root⟩ := b
  cases openElements with
  | nil => rfl
  | cons e outer => simp only [step, Element.addText_empty]

theorem step_text_text (b : Builder) (s s' : String) :
    (b.step (.text s)).step (.text s') = b.step (.text (s ++ s')) := by
  obtain ⟨openElements, root⟩ := b
  cases openElements with
  | nil => rfl
  | cons e outer => simp only [step, Element.addText_addText]

theorem foldl_joined (event : Event) (events : List Event) (b : Builder) :
    (Event.joined event events).foldl step b = events.foldl step (b.step event) := by
  cases event with
  | text s =>
    rcases Event.joined_text_cases events with ⟨t, rest, rfl, h⟩ | h
    · rw [h, List.foldl_cons, List.foldl_cons, step_text_text]
    · rw [h]
      split
      · next hs => rw [hs, step_empty]
      · rfl
  | start tag attributes => rfl
  | stop => rfl

/-- How texts are cut does not matter to a builder. -/
theorem foldl_merged (events : List Event) (b : Builder) :
    (Event.merged events).foldl step b = events.foldl step b := by
  induction events generalizing b with
  | nil => rfl
  | cons event events ih => rw [Event.merged_cons, foldl_joined, ih, List.foldl_cons]

mutual

/-- The events of an element build the element. -/
theorem foldl_flatten : ∀ (e : Element) (b : Builder),
    e.flatten.foldl step b = b.attach { e with tail := "" }
  | ⟨tag, attributes, text, tail, children⟩, ⟨outer, root⟩ => by
    rw [Element.flatten, List.cons_append, List.cons_append, List.foldl_cons, List.foldl_cons,
      List.foldl_append]
    refine (congrArg (List.foldl step · _)
      (foldl_flattenAll children { tag, attributes, text := "" ++ text } outer root)).trans ?_
    rw [String.empty_append]
    rfl

theorem foldl_flattenAll : ∀ (es : List Element) (e : Element) (outer : List Element)
    (root : Option Element), (Element.flattenAll es).foldl step ⟨e :: outer, root⟩ =
      ⟨{ e with children := e.children ++ es } :: outer, root⟩
  | [], ⟨tag, attributes, text, tail, children⟩, outer, root => by
    rw [List.append_nil]
    rfl
  | first :: es, e, outer, root => by
    have htail :
        ((e.addChild { first with tail := "" }).addText first.tail) = e.addChild first := by
      cases first
      rw [Element.addText, Element.addChild, List.getLast?_concat]
      simp only [List.dropLast_concat, String.empty_append]
      rfl
    rw [Element.flattenAll, List.foldl_append, foldl_flatten first, List.foldl_cons]
    refine (congrArg (List.foldl step · _) (congrArg (⟨· :: outer, root⟩) htail)).trans ?_
    rw [foldl_flattenAll es, Element.addChild, List.append_assoc]
    rfl

end

/-- The events that led to the open elements: the outermost one comes first, and none has ended. -/
def trace (b : Builder) : List Event := b.openElements.reverse.flatMap (·.begun)

/-- A builder is inside the first element, with `n` open elements below that one, after the events
`xs` of the element. -/
structure Follows (b : Builder) (n : Nat) (xs : List Event) : Prop where
  depth : b.openElements.length = n + 1
  unfinished : b.root = none
  tails : ∀ e ∈ b.openElements, e.tail = ""
  trace : Event.merged b.trace = Event.merged xs

namespace Follows

theorem start (tag : String) (attributes : List Attribute) :
    (step {} (.start tag attributes)).Follows 0 [.start tag attributes] where
  depth := rfl
  unfinished := rfl
  tails := List.forall_mem_singleton.2 rfl
  trace := Event.merged_append_empty [.start tag attributes]

theorem step_start (h : b.Follows n xs) (tag : String) (attributes : List Attribute) :
    (b.step (.start tag attributes)).Follows (n + 1) (xs ++ [.start tag attributes]) where
  depth := by rw [step, List.length_cons, h.depth]
  unfinished := h.unfinished
  tails := List.forall_mem_cons.2 ⟨rfl, h.tails⟩
  trace := by
    rw [Builder.trace, step, List.reverse_cons, List.flatMap_append]
    refine Event.merged_append_congr h.trace ?_
    exact Event.merged_append_empty [.start tag attributes]

theorem step_text (h : b.Follows n xs) (s : String) :
    (b.step (.text s)).Follows n (xs ++ [.text s]) := by
  obtain ⟨_ | ⟨e, outer⟩, root⟩ := b
  · exact absurd h.depth (Nat.succ_ne_zero n).symm
  · obtain ⟨he, houter⟩ := List.forall_mem_cons.1 h.tails
    refine ⟨h.depth, h.unfinished, List.forall_mem_cons.2 ⟨?_, houter⟩, ?_⟩
    · rw [Element.tail_addText, he]
    · have htrace := h.trace
      rw [Builder.trace, List.reverse_cons, List.flatMap_append, List.flatMap_singleton] at htrace
      rw [Builder.trace, step, List.reverse_cons, List.flatMap_append, List.flatMap_singleton,
        Event.merged_append_congr rfl (Element.merged_begun_addText e s), ← List.append_assoc]
      exact Event.merged_append_congr htrace rfl

/-- The innermost element goes into the one around it, with all its events. -/
theorem step_stop (h : b.Follows (n + 1) xs) : (b.step .stop).Follows n (xs ++ [.stop]) := by
  obtain ⟨_ | ⟨e, _ | ⟨parent, outer⟩⟩, root⟩ := b
  · exact absurd h.depth (Nat.succ_ne_zero _).symm
  · exact absurd (Nat.succ.inj h.depth) (Nat.succ_ne_zero n).symm
  · obtain ⟨he, htails⟩ := List.forall_mem_cons.1 h.tails
    obtain ⟨hparent, houter⟩ := List.forall_mem_cons.1 htails
    refine ⟨Nat.succ.inj h.depth, h.unfinished, List.forall_mem_cons.2 ⟨hparent, houter⟩, ?_⟩
    have htrace : Builder.trace (step ⟨e :: parent :: outer, root⟩ .stop) =
        Builder.trace ⟨e :: parent :: outer, root⟩ ++ [.stop] ++ [.text ""] := by
      simp only [Builder.trace, step, attach, List.reverse_cons, List.flatMap_append,
        List.flatMap_singleton, Element.begun_addChild, Element.flatten_eq e, he, List.append_assoc]
    rw [htrace, Event.merged_append_empty]
    exact Event.merged_append_congr h.trace rfl

/-- The end of the first element finishes it. -/
theorem step_last (h : b.Follows 0 xs) :
    ∃ root, b.step .stop = ⟨[], some root⟩ ∧ root.tail = "" ∧
      Event.merged root.flatten = Event.merged (xs ++ [.stop]) := by
  obtain ⟨_ | ⟨e, _ | ⟨parent, outer⟩⟩, root⟩ := b
  · exact absurd h.depth (Nat.succ_ne_zero _).symm
  · obtain rfl : root = none := h.unfinished
    refine ⟨e, rfl, h.tails e List.mem_cons_self, ?_⟩
    rw [Element.flatten_eq]
    refine Event.merged_append_congr ?_ rfl
    exact (congrArg Event.merged (List.append_nil e.begun).symm).trans h.trace
  · exact absurd (Nat.succ.inj h.depth) (Nat.succ_ne_zero _)

end Follows

/-- A finished element stays the root. -/
theorem root_foldl (h : b.root = some root) (events : List Event) :
    (events.foldl step b).root = some root := by
  induction events generalizing b with
  | nil => exact h
  | cons event events ih =>
    refine ih ?_
    obtain ⟨openElements, _⟩ := b
    obtain rfl := h
    cases event with
    | start tag attributes => rfl
    | text s => cases openElements <;> rfl
    | stop =>
      rcases openElements with _ | ⟨e, _ | ⟨parent, outer⟩⟩ <;> rfl

theorem finish_eq_ok_iff : b.finish = .ok root ↔ b.openElements = [] ∧ b.root = some root := by
  obtain ⟨_ | ⟨e, outer⟩, _ | r⟩ := b <;> simp [finish]

/-- When the events of a document have ended without a fault, the root has the events of the first
element. -/
theorem Follows.run (h : b.Follows n xs) (hend : (events.foldl step b).finish = .ok root) :
    root.tail = "" ∧
      Event.merged root.flatten = Event.merged (xs ++ Event.throughEnd n events) := by
  obtain ⟨hopen, hroot⟩ := finish_eq_ok_iff.1 hend
  induction events generalizing b n xs with
  | nil => exact absurd (h.depth.symm.trans (congrArg List.length hopen)) (Nat.succ_ne_zero n)
  | cons event events ih =>
    cases event with
    | start tag attributes =>
      rw [Event.throughEnd, List.append_cons]
      exact ih (h.step_start tag attributes) hend hopen hroot
    | text s =>
      rw [Event.throughEnd, List.append_cons]
      exact ih (h.step_text s) hend hopen hroot
    | stop =>
      cases n with
      | zero =>
        obtain ⟨first, hstep, htail, hflatten⟩ := h.step_last
        rw [List.foldl_cons, hstep, root_foldl rfl] at hroot
        obtain rfl := Option.some.inj hroot
        exact ⟨htail, hflatten⟩
      | succ n =>
        rw [Event.throughEnd, List.append_cons]
        exact ih h.step_stop hend hopen hroot

/-- What comes before the first element leaves no trace. -/
theorem run_firstElement (hend : (events.foldl step {}).finish = .ok root) :
    root.tail = "" ∧ Event.merged root.flatten = Event.merged (Event.firstElement events) := by
  induction events with
  | nil => cases hend
  | cons event events ih =>
    cases event with
    | start tag attributes => exact (Follows.start tag attributes).run hend
    | text s => exact ih hend
    | stop => exact ih hend

end Builder

namespace Element

/-- How texts are cut does not matter to a tree. -/
theorem ofEvents_congr (h : Event.merged xs = Event.merged ys) : ofEvents xs = ofEvents ys := by
  rw [ofEvents, ofEvents, ← Builder.foldl_merged xs, h, Builder.foldl_merged]

/-- A tree without a tail is built from its events. -/
theorem ofEvents_flatten (htail : e.tail = "") : ofEvents e.flatten = .ok e := by
  rw [ofEvents, Builder.foldl_flatten]
  obtain ⟨tag, attributes, text, tail, children⟩ := e
  obtain rfl : tail = "" := htail
  rfl

end Element

/-! ### Documents -/

/-- What a piece of a document means. A tag that is start and end in one means both; comments,
instructions and declarations mean nothing. -/
inductive Markup.Means : Markup → List Event → Prop
  | other : Means .other []
  | text {raw cs : List Char} (h : resolve raw = .ok cs) : Means (.text raw) [.text (.ofList cs)]
  | cdata (raw : List Char) : Means (.cdata raw) [.text (.ofList raw)]
  | single {content : List Char} {tag : String} {attributes : List Attribute}
      (h : Attribute.readAll content = .ok (tag, attributes)) :
      Means (.startTag content true) [.start tag attributes, .stop]
  | start {content : List Char} {tag : String} {attributes : List Attribute}
      (h : Attribute.readAll content = .ok (tag, attributes)) :
      Means (.startTag content false) [.start tag attributes]
  | stop (name : String) : Means (.endTag name) [.stop]

namespace Markup

/-- The events of one piece, and the names that are open after it. -/
def read (names : List String) (position : Nat) : Markup → Except Error (List Event × List String)
  | .other => .ok ([], names)
  | .text raw => (resolve raw).mapError .text |>.map fun cs => ([.text (.ofList cs)], names)
  | .cdata raw => .ok ([.text (.ofList raw)], names)
  | .startTag content empty =>
    (Attribute.readAll content).mapError .startTag |>.map fun (tag, attributes) =>
      if empty then ([.start tag attributes, .stop], names)
      else ([.start tag attributes], tag :: names)
  | .endTag name =>
    (checkEnd names name).mapError (.markup position) |>.map fun outer => ([.stop], outer)

variable {markup : Markup} {names names' : List String} {position : Nat}

/-- Pieces are read one after the other. -/
theorem ofPieces_cons (names : List String) (position : Nat) (markup : Markup)
    (pieces : List Piece) :
    Event.ofPieces names (⟨position, .ok markup⟩ :: pieces) =
      (markup.read names position).bind fun (more, names') =>
        (Event.ofPieces names' pieces).map (more ++ ·) := by
  cases markup with
  | text raw => rw [Event.ofPieces, read]; cases resolve raw <;> rfl
  | startTag content empty =>
    rw [Event.ofPieces, read]
    cases Attribute.readAll content with
    | error e => rfl
    | ok start => cases empty <;> rfl
  | endTag name => rw [Event.ofPieces, read]; cases checkEnd names name <;> rfl
  | other =>
    rw [Event.ofPieces]
    exact (congrFun Except.map_id (Event.ofPieces names pieces)).symm
  | cdata raw => rfl

theorem means_of_read (h : markup.read names position = .ok (events, names')) :
    markup.Means events := by
  cases markup with
  | other =>
    cases h
    exact .other
  | text raw =>
    obtain ⟨cs, hcs, hevents⟩ := map_eq_ok.1 h
    cases hevents
    exact .text (mapError_eq_ok.1 hcs)
  | cdata raw =>
    cases h
    exact .cdata raw
  | startTag content empty =>
    obtain ⟨start, hstart, hevents⟩ := map_eq_ok.1 h
    cases empty <;> cases hevents
    · exact .start (mapError_eq_ok.1 hstart)
    · exact .single (mapError_eq_ok.1 hstart)
  | endTag name =>
    obtain ⟨outer, -, hevents⟩ := map_eq_ok.1 h
    cases hevents
    exact .stop name

end Markup

/-- The events of pieces that can be read are what the pieces mean, one after the other. -/
theorem Event.means_of_ofPieces {names : List String} {pieces : List Piece}
    (h : ofPieces names pieces = .ok events) :
    ∃ markups eventss, pieces.map (·.markup) = markups.map .ok ∧
      List.Forall₂ Markup.Means markups eventss ∧ events = eventss.flatten := by
  induction pieces generalizing names events with
  | nil =>
    cases h
    exact ⟨[], [], rfl, .nil, rfl⟩
  | cons piece pieces ih =>
    obtain ⟨position, fault | markup⟩ := piece
    · cases h
    · rw [Markup.ofPieces_cons] at h
      obtain ⟨⟨more, names'⟩, hread, h⟩ := bind_eq_ok.1 h
      obtain ⟨rest, hrest, rfl⟩ := map_eq_ok.1 h
      obtain ⟨markups, eventss, hmarkups, hall, rfl⟩ := ih hrest
      exact ⟨markup :: markups, more :: eventss, congrArg _ hmarkups,
        .cons (Markup.means_of_read hread) hall, rfl⟩

/-- The tree of a document has exactly the events of the first element, texts joined, and with them
all character data inside that element. It is the only tree that has them, and what else is in the
document does not matter. -/
theorem parse_flatten {document : String} (h : Element.parse document = .ok root) :
    ∃ markups eventss,
      (Piece.scan 0 (Element.dropMark document.toList)).map (·.markup) = markups.map .ok ∧
      List.Forall₂ Markup.Means markups eventss ∧
      let inner := Event.firstElement eventss.flatten
      Event.merged root.flatten = Event.merged inner ∧
      root.allText = Event.characters inner ∧ root.tail = "" ∧
      Element.ofEvents inner = .ok root ∧
      ∀ e : Element, e.tail = "" → (Event.merged e.flatten = Event.merged inner ↔ e = root) := by
  obtain ⟨events, hevents, hbuild⟩ := bind_eq_ok.1 h
  obtain ⟨markups, eventss, hmarkups, hmeans, rfl⟩ := Event.means_of_ofPieces hevents
  obtain ⟨htail, hflatten⟩ := Builder.run_firstElement hbuild
  have hinner := (Element.ofEvents_congr hflatten).symm.trans (Element.ofEvents_flatten htail)
  refine ⟨markups, eventss, hmarkups, hmeans, hflatten, ?_, htail, hinner, ?_⟩
  · rw [← Element.characters_flatten, ← Event.characters_merged, hflatten, Event.characters_merged]
  · rintro e he
    refine ⟨fun hsame => ?_, fun heq => heq ▸ hflatten⟩
    have hbuilt := (Element.ofEvents_congr hsame).symm.trans (Element.ofEvents_flatten he)
    exact Except.ok.inj (hbuilt.symm.trans hinner)

/-- A tree of two elements with text inside the first and after the second. -/
def commentedTree : Element where
  tag := "a"
  attributes := [⟨"b", "1"⟩]
  text := "s<<t"
  children := [{ tag := "c", tail := "u" }]

/-- The tree with a comment, a section of character data and a second element after the first. -/
def commentedDocument : String := "<!--x--><a b=\"1\">s&lt;<![CDATA[<t]]><c/>u</a> <a>v</a>"

theorem flatten_mixed :
    Element.parse commentedDocument = .ok commentedTree ∧
      ∃ markups eventss,
        (Piece.scan 0 (Element.dropMark commentedDocument.toList)).map (·.markup) =
          markups.map .ok ∧
        List.Forall₂ Markup.Means markups eventss ∧
        Event.merged (Event.firstElement eventss.flatten) =
          [.start "a" [⟨"b", "1"⟩], .text "s<<t", .start "c" [], .stop, .text "u", .stop] := by
  have hparse : Element.parse commentedDocument = .ok commentedTree := by with_unfolding_all rfl
  obtain ⟨markups, eventss, hmarkups, hmeans, hflatten, -⟩ := parse_flatten hparse
  exact ⟨hparse, markups, eventss, hmarkups, hmeans, hflatten.symm.trans (by decide)⟩

end ApiHeaders.Xml
