import ApiHeaders.Proofs.Body
import ApiHeaders.Proofs.Breaks
import ApiHeaders.Proofs.HeaderText
import ApiHeaders.Proofs.PlatformMacros
import ApiHeaders.Proofs.Trimming

/-!
# The parts of a header

A header is put together from parts: the directives of its guards, which nest, and texts in
between. Texts that are commented out are no directives any more.

## Main definitions

* `Target.parts` are the parts of a header, `Writing.parts` those of a set in it.
* `Boilerplate.Tidy` and `Writing.Tidy` say what the order of directives relies on.
* `isLinkage` tells the lines that open and close the `extern "C"` block.

## Main statements

* `Target.pieces_file_eq_parts` says that a header consists of its parts.
* `Target.matched_parts` says that its guards nest.
* `Target.linkage_parts` says which of its lines open and close the `extern "C"` block.
-/

namespace ApiHeaders

open Text (physicalLines)

/-! ### Lines of comments -/

/-- Whether a line starts like one of a comment. -/
def isCommentLine (line : String) : Bool :=
  match line.toList with
  | '/' :: '*' :: _ | ' ' :: '*' :: _ => true
  | _ => false

/-- Whether a line opens or closes the `extern "C"` block. -/
def isLinkage (line : String) : Bool :=
  line = "extern \"C\" \x7b" || line = "\x7d /* extern \"C\" */"

theorem not_isLinkage_of_head {line : String} {c : Char} (h : line.toList.head? = some c)
    (hc : c ≠ 'e' ∧ c ≠ '\x7d') : isLinkage line = false := by
  by_contra hlinkage
  simp only [isLinkage, Bool.not_eq_false, Bool.or_eq_true, decide_eq_true_eq] at hlinkage
  rcases hlinkage with rfl | rfl
  · exact hc.1 (Option.some.inj h).symm
  · exact hc.2 (Option.some.inj h).symm

theorem not_isLinkage_append {opening : String} {c : Char} (h : opening.toList.head? = some c)
    (hc : c ≠ 'e' ∧ c ≠ '\x7d') (rest : String) : isLinkage (opening ++ rest) = false := by
  refine not_isLinkage_of_head (c := c) ?_ hc
  rw [String.toList_append, List.head?_append, h]
  rfl

theorem toList_of_isCommentLine {line : String} (h : isCommentLine line) :
    ∃ cs, line.toList = '/' :: '*' :: cs ∨ line.toList = ' ' :: '*' :: cs := by
  unfold isCommentLine at h
  split at h
  · next cs hcs => exact ⟨cs, .inl hcs⟩
  · next cs hcs => exact ⟨cs, .inr hcs⟩
  · cases h

theorem not_isConditional_of_isCommentLine {line : String} (h : isCommentLine line) :
    isConditional line = false := by
  have hnone : Directive.of? line = none := by
    obtain ⟨cs, hcs | hcs⟩ := toList_of_isCommentLine h
    all_goals
      unfold Directive.of?
      rw [hcs]
      rfl
  rw [isConditional, hnone]
  rfl

theorem not_isLinkage_of_isCommentLine {line : String} (h : isCommentLine line) :
    isLinkage line = false := by
  obtain ⟨cs, hcs | hcs⟩ := toList_of_isCommentLine h
  · exact not_isLinkage_of_head (congrArg List.head? hcs) (by decide)
  · exact not_isLinkage_of_head (congrArg List.head? hcs) (by decide)

theorem suppressed.isCommentLine_inner {l : String} (h : '\n' ∉ l.toList) :
    isCommentLine (inner l) ∧ '\n' ∉ (inner l).toList := by
  have hstar : Text.isBlank '*' = false := by decide
  have htrim : (inner l).toList = ' ' :: '*' :: Text.trimEnd (' ' :: l.toList) := by
    rw [inner, String.toList_ofList, String.toList_append]
    exact Text.rdropWhile_append_cons hstar [' '] (' ' :: l.toList)
  have hrest : '\n' ∉ Text.trimEnd (' ' :: l.toList) := by
    intro hmem
    rcases List.mem_cons.1 ((List.rdropWhile_prefix _ _).subset hmem) with hmem | hmem
    · cases hmem
    · exact h hmem
  rw [isCommentLine, htrim]
  simp [hrest]

/-- What is commented out stands on lines of comments. -/
theorem isCommentLine_of_mem_suppressed {text line : String} (h : line ∈ suppressed text) :
    isCommentLine line ∧ '\n' ∉ line.toList := by
  have hlines : ∀ l ∈ Text.lines (Text.replaceTerminator text), '\n' ∉ l.toList :=
    fun l hl => Text.break_not_mem_of_mem_lines hl
  unfold suppressed at h
  split at h
  · next l hl =>
    rw [hl] at hlines
    have hbreak := hlines l List.mem_cons_self
    rw [List.mem_singleton.1 h]
    refine ⟨?_, by simp [hbreak]⟩
    rw [String.append_assoc, isCommentLine, String.toList_append]
    rfl
  · simp only [List.cons_append, List.nil_append, List.mem_cons, List.mem_append, List.mem_map,
      List.not_mem_nil, or_false] at h
    rcases h with rfl | ⟨l, hl, rfl⟩ | rfl
    · exact ⟨rfl, by decide⟩
    · exact suppressed.isCommentLine_inner (hlines l hl)
    · exact ⟨rfl, by decide⟩

/-! ### The parts of a set -/

namespace Item

/-- The lines that the registry contributes to an item, unless they are commented out. -/
def foreign : Item → List String
  | comment text => physicalLines (comment text).lines
  | block b => if b.isLive then b.lines else []
  | _ => []

end Item

namespace Writing

variable {w : Writing} {t : Target} {b : Boilerplate}

/-- The lines of a set's documentation. -/
def docLines (w : Writing) : List String := Text.lines (Doc.render w.registry.groups none w.set.doc)

/-- The lines that the registry contributes to a set, unless they are commented out. -/
def foreign (w : Writing) : List String := w.docLines ++ w.items.flatMap Item.foreign

/-- The parts that a header has in the place of a set. -/
def parts (w : Writing) (t : Target) : List Part :=
  let body := match w.set.annexFrom? t with
    | none => w.items.flatMap Item.parts
    | some _ => [.text ["#include \"" ++ w.target.path.fileName ++ "\""]]
  guarded w.set.name (.text (("#define " ++ w.set.name ++ " 1") :: w.docLines) :: body)

/-- What the order of directives in a set relies on. Names hold no line break. Documentation and
comments have no conditionals, and each declaration that is not commented out closes those that it
opens. -/
structure Tidy (w : Writing) : Prop where
  name : '\n' ∉ w.set.name.toList
  annex : ∀ annex ∈ w.set.annex, '\n' ∉ annex.toList
  headers : ∀ header ∈ w.set.headers w.registry, '\n' ∉ header.toList
  scopes : ∀ item ∈ w.items, ∀ m ∈ item.prototypeMacro?, '\n' ∉ m.toList
  doc : ∀ line ∈ w.docLines, isConditional line = false
  comments : ∀ text, .comment text ∈ w.items →
    ∀ line ∈ physicalLines (Item.comment text).lines, isConditional line = false
  live : ∀ block, .block block ∈ w.items → block.isLive → Nested block.lines

/-- A set whose passes do not come to their end has no items. -/
theorem result_items_of_mem {item : Item} (h : item ∈ w.items) :
    (w.set.items w.registry w.target).result = .ok w.items := by
  unfold items at h ⊢
  cases hresult : (w.set.items w.registry w.target).result with
  | error e =>
    rw [hresult] at h
    cases h
  | ok items => rfl

theorem lines_of_mem_items {block : Block} (h : .block block ∈ w.items) :
    ∃ text, block.lines = if block.isLive then Text.lines text else suppressed text := by
  have hmem : block ∈ w.items.filterMap Item.block? := List.mem_filterMap.2 ⟨_, h, rfl⟩
  rw [ApiSet.blocks_items (result_items_of_mem h)] at hmem
  obtain ⟨p, -, hmem⟩ := List.mem_flatMap.1 hmem
  obtain ⟨⟨name, block⟩, hemission, rfl⟩ := List.mem_map.1 hmem
  obtain ⟨d, -, hwrites⟩ := ApiSet.writes_of_mem_emissions hemission
  obtain ⟨text, -, rfl⟩ := Block.of_eq_ok.1 hwrites
  refine ⟨text, ?_⟩
  cases w.registry.otherWriter? w.set name <;> simp [Block.isLive]

theorem physicalLines_block {block : Block} (h : .block block ∈ w.items) :
    physicalLines block.lines = block.lines := by
  obtain ⟨text, hlines⟩ := lines_of_mem_items h
  rw [hlines]
  split
  · exact Text.physicalLines_lines text
  · exact Text.physicalLines_of_not_mem fun line hline =>
      (isCommentLine_of_mem_suppressed hline).2

theorem isCommentLine_of_not_live {block : Block} (h : .block block ∈ w.items)
    (hlive : block.isLive = false) : ∀ line ∈ block.lines, isCommentLine line := by
  obtain ⟨text, hlines⟩ := lines_of_mem_items h
  rw [hlive, if_neg Bool.false_ne_true] at hlines
  intro line hline
  rw [hlines] at hline
  exact (isCommentLine_of_mem_suppressed hline).1

theorem Tidy.orderly (h : w.Tidy) {item : Item} (hitem : item ∈ w.items) : item.Orderly where
  unbroken := h.scopes item hitem
  nested := by
    cases item with
    | openPrototypes | closePrototypes | heading | blank => rfl
    | comment text => exact nested_of_not_isConditional (h.comments text hitem)
    | block block =>
      rw [Item.texts, physicalLines_block hitem]
      cases hlive : block.isLive with
      | true => exact h.live block hitem hlive
      | false =>
        exact nested_of_not_isConditional fun line hline =>
          not_isConditional_of_isCommentLine (isCommentLine_of_not_live hitem hlive line hline)

/-- The lines of a set in a header are those of its parts. -/
theorem inHeader_chapter (h : w.Tidy) :
    (w.chapter b t).inHeader = (w.parts t).flatMap Part.lines := by
  have hdoc : (w.chapter b t).doc = w.docLines := Text.physicalLines_lines _
  have hbody : (w.chapter b t).body = (w.items.flatMap Item.parts).flatMap Part.lines :=
    Item.physicalLines_flatMap h.scopes
  have haround (body : List Part) : (w.chapter b t).around (body.flatMap Part.lines) =
      (guarded w.set.name (.text (("#define " ++ w.set.name ++ " 1") :: w.docLines) :: body)).flatMap
        Part.lines := by
    rw [lines_guarded, Chapter.around, hdoc]
    rfl
  rw [Chapter.inHeader, parts]
  cases ha : w.set.annexFrom? t with
  | none =>
    have hsatellite : (w.chapter b t).satellite = none := by simp [chapter, ha]
    rw [hsatellite]
    simp only [hbody, haround]
  | some annex =>
    obtain ⟨e, he, hfile⟩ : ∃ e, (w.chapter b t).satellite = some e ∧
        e.file = w.target.path.fileName := by simp [chapter, ha]
    rw [he]
    simp only [hfile]
    exact haround [.text ["#include \"" ++ w.target.path.fileName ++ "\""]]

/-- The guards of a set nest. -/
theorem Tidy.matched (h : w.Tidy) (t : Target) : Matched (w.parts t) := by
  refine .guarded w.set.name (.text ?_ ?_)
  · exact nested_define_one w.set.name (nested_of_not_isConditional h.doc)
  · split
    · cases hitems : w.items with
      | nil => exact .nil
      | cons item items =>
        rw [← hitems]
        exact ApiSet.matched_items (result_items_of_mem (hitems ▸ List.mem_cons_self))
          fun item hitem => h.orderly hitem
    · exact .single (nested_include _)

/-- What the renderer adds to a set neither opens nor closes the `extern "C"` block. -/
theorem not_isLinkage_item {item : Item} (hitem : item ∈ w.items)
    (hforeign : ∀ line ∈ item.foreign, isLinkage line = false) :
    ∀ line ∈ item.parts.flatMap Part.lines, isLinkage line = false := by
  cases item with
  | openPrototypes | closePrototypes =>
    simp only [Item.parts, Part.lines, List.flatMap_cons, List.flatMap_nil, List.append_nil,
      List.cons_append, List.nil_append, List.forall_mem_cons, String.append_assoc]
    and_intros <;> first
      | exact not_isLinkage_append rfl (by decide) _
      | rfl
      | exact List.forall_mem_nil _
  | heading => decide
  | blank => decide
  | comment text => simpa [Item.parts, Item.foreign, Part.lines] using hforeign
  | block block =>
    have hparts : (Item.block block).parts = [.text block.lines] :=
      congrArg (fun lines => [Part.text lines]) (physicalLines_block hitem)
    simp only [hparts, Part.lines, List.flatMap_cons, List.flatMap_nil, List.append_nil]
    cases hlive : block.isLive with
    | true => simpa [Item.foreign, hlive] using hforeign
    | false =>
      exact fun line hline =>
        not_isLinkage_of_isCommentLine (isCommentLine_of_not_live hitem hlive line hline)

theorem not_isLinkage_parts (hforeign : ∀ line ∈ w.foreign, isLinkage line = false) (t : Target) :
    ∀ line ∈ (w.parts t).flatMap Part.lines, isLinkage line = false := by
  have hdoc : ∀ line ∈ w.docLines, isLinkage line = false := fun line hline =>
    hforeign line (List.mem_append_left _ hline)
  have hitems : ∀ line ∈ (w.items.flatMap Item.parts).flatMap Part.lines,
      isLinkage line = false := by
    intro line hline
    rw [List.flatMap_assoc] at hline
    obtain ⟨item, hitem, hline⟩ := List.mem_flatMap.1 hline
    refine not_isLinkage_item hitem (fun line hline => hforeign line ?_) line hline
    exact List.mem_append_right _ (List.mem_flatMap.2 ⟨item, hitem, hline⟩)
  rw [parts, lines_guarded, fence]
  simp only [List.flatMap_cons, Part.lines, List.cons_append, List.append_assoc,
    List.forall_mem_cons, List.forall_mem_append, String.append_assoc]
  refine ⟨not_isLinkage_append rfl (by decide) _, not_isLinkage_append rfl (by decide) _, hdoc, ?_,
    not_isLinkage_append rfl (by decide) _, List.forall_mem_nil _, rfl, List.forall_mem_nil _⟩
  split
  · exact hitems
  · simp only [List.flatMap_cons, List.flatMap_nil, Part.lines, List.append_nil,
      List.forall_mem_cons]
    exact ⟨not_isLinkage_append rfl (by decide) _, List.forall_mem_nil _⟩

end Writing

/-! ### The parts of a file -/

/-- What the order of directives relies on in what a file says about its origin. -/
structure Boilerplate.Tidy (b : Boilerplate) : Prop where
  license : Nested (Text.pieces '\n' b.license)
  guardPrefix : '\n' ∉ b.guardPrefix.toList
  registryName : '\n' ∉ b.registryName.toList
  generator : '\n' ∉ b.generator.toList
  timestamp : '\n' ∉ b.timestamp.toList

namespace Boilerplate

variable {b : Boilerplate}

/-- The license, whether a line break ends it or not. -/
theorem pieces_license (b : Boilerplate) :
    Text.pieces '\n' b.license = b.licenseLines ∨
      Text.pieces '\n' b.license = b.licenseLines ++ [""] := by
  have hblank : Text.pieces '\n' "" = [""] := rfl
  unfold licenseLines licenseBlock
  split
  · next h =>
    right
    rcases Bool.or_eq_true_iff.1 h with h | h
    · rw [of_decide_eq_true h]
      rfl
    · obtain ⟨x, hx⟩ := List.getLast?_eq_some_iff.1 (of_decide_eq_true h)
      have hlicense : b.license = String.ofList x ++ "\n" ++ "" := by
        rw [← String.toList_inj, hx]
        simp
      rw [hlicense, Text.pieces_append_break, hblank, List.dropLast_concat]
  · left
    have hbreak := Text.pieces_append_break b.license ""
    rw [String.append_empty] at hbreak
    rw [hbreak, hblank, List.dropLast_concat]

theorem Tidy.nested_licenseLines (h : b.Tidy) : Nested b.licenseLines := by
  have hlicense := h.license
  rcases b.pieces_license with heq | heq
  · rwa [heq] at hlicense
  · rw [heq, Nested, depthAfter_append, Option.bind_eq_some_iff] at hlicense
    obtain ⟨depth, hdepth, hblank⟩ := hlicense
    rw [Nested, hdepth]
    exact hblank

theorem mem_license {line : String} (h : line ∈ b.licenseLines) :
    line ∈ Text.pieces '\n' b.license := by
  rcases b.pieces_license with heq | heq
  · rwa [heq]
  · rw [heq]
    exact List.mem_append_left _ h

theorem Tidy.isCommentLine_banner (h : b.Tidy) :
    physicalLines b.banner = b.banner ∧ ∀ line ∈ b.banner, isCommentLine line := by
  constructor
  · apply Text.physicalLines_of_not_mem
    simp [banner, h.registryName, h.generator, h.timestamp]
  · simp only [banner, List.forall_mem_cons, String.append_assoc]
    refine ⟨rfl, ?_, rfl, ?_, rfl, List.forall_mem_nil _⟩
    all_goals
      rw [isCommentLine, String.toList_append]
      rfl

end Boilerplate

namespace Target

variable {t : Target} {b : Boilerplate} {ws : List Writing}

/-- The parts of a header with the given sets. -/
def parts (t : Target) (b : Boilerplate) (ws : List Writing) : List Part :=
  let guard := b.guard t.path.fileName
  .text b.licenseLines :: guarded guard
    ([.text (("#define " ++ guard) :: b.opening), .text (Text.pieces '\n' t.preamble)]
      ++ ws.flatMap (·.parts t) ++ [.text ((if ws = [] then [""] else []) ++ closingLines)])

/-- A header consists of its parts. -/
theorem pieces_file_eq_parts (hform : t.form = .header)
    (hguard : '\n' ∉ (b.guard t.path.fileName).toList)
    (hws : ∀ w ∈ ws, w.target.form = .header ∧ '\n' ∉ w.target.path.fileName.toList ∧ w.Tidy) :
    Text.pieces '\n' (t.file b (ws.flatMap (·.inHeader t))) =
      (t.parts b ws).flatMap Part.lines := by
  have hchapters : ((ws.map (·.chapter b t)).flatMap (·.inHeader)) =
      (ws.flatMap (·.parts t)).flatMap Part.lines := by
    rw [List.flatMap_map, List.flatMap_assoc]
    exact List.flatMap_congr fun w hw => Writing.inHeader_chapter (hws w hw).2.2
  rw [lines_cluster hform hguard fun w hw => ⟨(hws w hw).1, (hws w hw).2.2.name, (hws w hw).2.1⟩,
    parts, List.flatMap_cons, lines_guarded]
  simp only [Cluster.lines, Cluster.wrap, cluster, hchapters]
  simp [Part.lines]

/-- The guards of a header nest. -/
theorem matched_parts (hb : b.Tidy) (hpreamble : Nested (Text.pieces '\n' t.preamble))
    (hws : ∀ w ∈ ws, w.Tidy) : Matched (t.parts b ws) := by
  obtain ⟨hbanner, hcomments⟩ := hb.isCommentLine_banner
  have hopening : Nested b.opening := by
    rw [Boilerplate.opening, hbanner]
    have hlint : Nested ["", "/* NOLINTBEGIN */"] := rfl
    have hblank : Nested [""] := rfl
    have hlines := nested_of_not_isConditional fun line hline =>
      not_isConditional_of_isCommentLine (hcomments line hline)
    exact (hblank.append hlines).append hlint
  have hclosing : Nested ((if ws = [] then [""] else []) ++ closingLines) := by
    split <;> rfl
  refine .text hb.nested_licenseLines (.guarded _ (.append (.append ?_ ?_) (.single hclosing)))
  · exact .text (nested_define _ hopening) (.single hpreamble)
  · exact .flatMap fun w hw => (hws w hw).matched t

/-- The `extern "C"` block of a header is closed at its end, and opened in its preamble only. -/
theorem linkage_parts (hb : b.Tidy)
    (hlicense : ∀ line ∈ Text.pieces '\n' b.license, isLinkage line = false)
    (hws : ∀ w ∈ ws, ∀ line ∈ w.foreign, isLinkage line = false) :
    ((t.parts b ws).flatMap Part.lines).filter isLinkage =
      (Text.pieces '\n' t.preamble).filter isLinkage ++ ["\x7d /* extern \"C\" */"] := by
  obtain ⟨hbanner, hcomments⟩ := hb.isCommentLine_banner
  have hfirst : b.licenseLines.filter isLinkage = [] :=
    List.filter_eq_nil_iff.2 fun line hline =>
      Bool.eq_false_iff.1 (hlicense line (Boilerplate.mem_license hline))
  have hopening : b.opening.filter isLinkage = [] := by
    have hlines : b.banner.filter isLinkage = [] := List.filter_eq_nil_iff.2 fun line hline =>
      Bool.eq_false_iff.1 (not_isLinkage_of_isCommentLine (hcomments line hline))
    rw [Boilerplate.opening, hbanner, List.cons_append, ← List.singleton_append,
      List.filter_append, List.filter_append, hlines]
    rfl
  have hsets : ((ws.flatMap (·.parts t)).flatMap Part.lines).filter isLinkage = [] := by
    rw [List.filter_eq_nil_iff, List.flatMap_assoc]
    intro line hline
    obtain ⟨w, hw, hline⟩ := List.mem_flatMap.1 hline
    exact Bool.eq_false_iff.1 (w.not_isLinkage_parts (hws w hw) t line hline)
  have hclosing : ((if ws = [] then [""] else []) ++ closingLines).filter isLinkage =
      ["\x7d /* extern \"C\" */"] := by
    split <;> rfl
  have hguard : isLinkage ("#ifndef " ++ b.guard t.path.fileName) = false :=
    not_isLinkage_append rfl (by decide) _
  have hdefine : isLinkage ("#define " ++ b.guard t.path.fileName) = false :=
    not_isLinkage_append rfl (by decide) _
  have hend : isLinkage ("#endif /* " ++ (b.guard t.path.fileName ++ " */")) = false :=
    not_isLinkage_append rfl (by decide) _
  have hblank : isLinkage "" = false := rfl
  simp only [parts, List.flatMap_cons, lines_guarded, fence, Part.lines, List.flatMap_append,
    List.flatMap_nil, List.filter_append, List.filter_cons, String.append_assoc, hfirst, hguard,
    hdefine, hopening, hsets, hclosing, hend, hblank, List.cons_append]
  simp

end Target

end ApiHeaders
