import ApiHeaders.Proofs.Flattening
import ApiHeaders.Proofs.Spelling

/-!
# Reading what was written

A tree can be written as a document in many ways: texts may be cut into sections of character data
and references, comments may stand between them, and tags may have blanks in them. Reading gives the
tree back.

## Main definitions

* `SpellsRun` says how the text between two tags is written.
* `SpellsForest` says how neighbouring elements are written.
* `Element.Written` says how a document with a root is written.
* `Reads` says what reading a part of a document comes to.

## Main statements

* `SpellsRun.reads` and `SpellsForest.reads` read runs of text and elements.
* `parse_written` reads a document.
-/

namespace ApiHeaders.Xml

variable {σ : Type} {cs content rest raw : List Char} {c : Char} {attributes : List Attribute}
  {tag : String} {names names' names'' : List String} {events events' : List Event}

/-! ### Where constructs end -/

/-- A construct goes on as long as there is a state, and ends where there is none. -/
theorem cut_eq_of_foldlM {step : σ → Char → Option σ} {s s' : σ}
    (hcontent : content.foldlM step s = some s') (hc : step s' c = none) (rest : List Char) :
    cut step s (content ++ c :: rest) = some (content, rest) := by
  induction content generalizing s with
  | nil =>
    cases hcontent
    rw [List.nil_append, cut, hc]
  | cons x content ih =>
    rw [List.foldlM_cons] at hcontent
    obtain ⟨s₁, hx, hcontent⟩ := Option.bind_eq_some_iff.1 hcontent
    rw [List.cons_append, cut, hx]
    simp only [ih hcontent, Option.map_some]

/-- Outside quotes, a tag goes on through what is neither a quote nor `>`. -/
theorem foldlM_closeUnquoted_plain (h : ∀ c ∈ cs, c ∉ ['>', '"', '\'']) :
    cs.foldlM closeUnquoted none = some none := by
  induction cs with
  | nil => rfl
  | cons c cs ih =>
    obtain ⟨hc, hcs⟩ := List.forall_mem_cons.1 h
    simp only [List.mem_cons, List.not_mem_nil, or_false, not_or] at hc
    have hstep : closeUnquoted none c = some none := by
      simp only [closeUnquoted, hc.1, hc.2.1, hc.2.2, decide_false, Bool.or_false,
        Bool.false_eq_true, if_false]
    rw [List.foldlM_cons, hstep]
    exact ih hcs

/-- Inside quotes, a tag goes on through what is not the quote. -/
theorem foldlM_closeUnquoted_quoted {quote : Char} (h : quote ∉ raw) :
    raw.foldlM closeUnquoted (some quote) = some (some quote) := by
  induction raw with
  | nil => rfl
  | cons c raw ih =>
    rw [List.mem_cons, not_or] at h
    have hstep : closeUnquoted (some quote) c = some (some quote) := by
      rw [closeUnquoted, if_neg (Ne.symm h.1)]
    rw [List.foldlM_cons, hstep]
    exact ih h.2

theorem IsName.foldlM (h : IsName cs) : cs.foldlM closeUnquoted none = some none := by
  refine foldlM_closeUnquoted_plain fun c hc hmem => (h.ne hc).2 ?_
  simp only [List.mem_cons, List.not_mem_nil, or_false] at hmem ⊢
  tauto

theorem IsBlank.foldlM (h : IsBlank cs) : cs.foldlM closeUnquoted none = some none := by
  refine foldlM_closeUnquoted_plain fun c hc hmem => ?_
  have hspace := h c hc
  simp only [List.mem_cons, List.not_mem_nil, or_false] at hmem
  rcases hmem with rfl | rfl | rfl <;> exact absurd hspace (by decide)

/-- The quotes of attributes are closed. -/
theorem SpellsAttributes.foldlM (h : SpellsAttributes attributes cs) :
    cs.foldlM closeUnquoted none = some none := by
  induction h with
  | nil hblank => exact hblank.foldlM
  | @cons a attributes blank left right raw cs hblank hne hkey hleft hright hvalue rest ih =>
    have hraw : '"' ∉ raw := hvalue.not_mem (by decide) (by decide)
    have hequals : closeUnquoted none '=' = some none := rfl
    have hopen : closeUnquoted none '"' = some (some '"') := rfl
    have hclose : closeUnquoted (some '"') '"' = some none := rfl
    simp only [List.foldlM_append, List.foldlM_cons, hblank.foldlM, hkey.foldlM, hleft.foldlM,
      hright.foldlM, hequals, hopen, foldlM_closeUnquoted_quoted hraw, hclose, ih,
      Option.bind_eq_bind, Option.bind_some]

/-- Attributes do not end in a slash. -/
theorem SpellsAttributes.getLast (h : SpellsAttributes attributes cs) :
    ∀ c ∈ cs.getLast?, c ≠ '/' := by
  induction h with
  | nil hblank =>
    rintro c hc rfl
    exact absurd (hblank _ (List.mem_of_getLast? hc)) (by decide)
  | @cons a attributes blank left right raw cs hblank hne hkey hleft hright hvalue rest ih =>
    intro c hc
    rw [List.append_cons, List.getLast?_append] at hc
    cases hlast : cs.getLast? with
    | none =>
      rw [hlast, Option.none_or, List.getLast?_concat] at hc
      cases hc
      decide
    | some x =>
      rw [hlast] at hc
      exact ih c (hlast.trans hc)

/-- A text without `>` goes on where only `>` closes. -/
theorem foldlM_closeAfter {closes : List Char → Bool} {before : List Char}
    (h : ∀ xs ys, cs = xs ++ '>' :: ys → closes (xs.reverse ++ before) = false) :
    cs.foldlM (closeAfter closes) before = some (cs.reverse ++ before) := by
  induction cs generalizing before with
  | nil => rfl
  | cons c cs ih =>
    have hstep : closeAfter closes before c = some (c :: before) := by
      unfold closeAfter
      split
      · next hc =>
        rw [Bool.and_eq_true, decide_eq_true_eq] at hc
        obtain ⟨rfl, hc⟩ := hc
        exact absurd hc (Bool.eq_false_iff.1 (h [] cs rfl))
      · rfl
    rw [List.foldlM_cons, hstep]
    refine (ih fun xs ys hcs => ?_).trans ?_
    · have hclosed := h (c :: xs) ys (congrArg _ hcs)
      rwa [List.reverse_cons, List.append_assoc] at hclosed
    · rw [List.reverse_cons, List.append_assoc]
      rfl

/-! ### Reading part by part -/

/-- Reading the text `cs`, where `names` are open, gives `events` and leaves `names'` open, if what
comes after the text satisfies `after`. -/
def Reads (after : List Char → Prop) (names : List String) (cs : List Char)
    (names' : List String) (events : List Event) : Prop :=
  ∀ position rest, after rest → ∃ next,
    Event.ofPieces names (Piece.scan position (cs ++ rest)) =
      (Event.ofPieces names' (Piece.scan next rest)).map (events ++ ·)

/-- A construct follows, or nothing. -/
def AtMarkup (cs : List Char) : Prop := ∀ c ∈ cs.head?, c = '<'

namespace Reads

variable {after after' : List Char → Prop} {cs' : List Char}

theorem nil (after : List Char → Prop) (names : List String) : Reads after names [] names [] := by
  intro position rest _
  refine ⟨position, ?_⟩
  exact (congrFun Except.map_id _).symm

/-- What is read in two parts is read as a whole. -/
theorem append (h : Reads after names cs names' events)
    (h' : Reads after' names' cs' names'' events')
    (hafter : ∀ rest, after' rest → after (cs' ++ rest)) :
    Reads after' names (cs ++ cs') names'' (events ++ events') := by
  intro position rest hrest
  obtain ⟨next, hfirst⟩ := h position (cs' ++ rest) (hafter rest hrest)
  obtain ⟨next', hsecond⟩ := h' next rest hrest
  refine ⟨next', ?_⟩
  rw [List.append_assoc, hfirst, hsecond]
  cases Event.ofPieces names'' (Piece.scan next' rest) with
  | error e => rfl
  | ok later => exact congrArg Except.ok (List.append_assoc events events' later).symm

end Reads

theorem Piece.scan_markup {kind : MarkupKind} {markup : Markup}
    (hkind : MarkupKind.of? (content ++ '>' :: rest) = some kind)
    (hcut : kind.cut (content ++ '>' :: rest) = some (content, rest))
    (hcontent : Markup.ofContent kind content = .ok markup) (position : Nat) :
    scan position ('<' :: (content ++ '>' :: rest)) =
      ⟨position, .ok markup⟩ :: scan (position + Text.size content + 2) rest := by
  rw [scan, if_pos rfl, hkind]
  simp only
  split
  · next hnone => cases hcut.symm.trans hnone
  · next hsome =>
    cases hcut.symm.trans hsome
    simp only [hcontent]

theorem Piece.scan_text (hne : raw ≠ []) (hraw : '<' ∉ raw) (hrest : AtMarkup rest)
    (position : Nat) :
    scan position (raw ++ rest) =
      ⟨position, .ok (.text raw)⟩ :: scan (position + Text.size raw) rest := by
  obtain ⟨c, cs, rfl⟩ := List.exists_cons_of_ne_nil hne
  rw [List.mem_cons, not_or] at hraw
  obtain ⟨htake, hdrop⟩ := span_append cs rest (p := (· ≠ '<'))
    (fun x hx => decide_eq_true fun heq => hraw.2 (heq ▸ hx))
    (fun x hx => decide_eq_false (not_not.2 (hrest x hx)))
  rw [List.cons_append, scan, if_neg (Ne.symm hraw.1)]
  simp only [htake, hdrop]

/-- A construct is read by what it means, whatever comes after it. -/
theorem reads_markup (names : List String) (kind : MarkupKind) {markup : Markup}
    (hkind : ∀ rest, MarkupKind.of? (content ++ '>' :: rest) = some kind)
    (hcut : ∀ rest, kind.cut (content ++ '>' :: rest) = some (content, rest))
    (hcontent : Markup.ofContent kind content = .ok markup)
    (hread : ∀ position, markup.read names position = .ok (events, names')) :
    Reads (fun _ => True) names ('<' :: (content ++ ['>'])) names' events := by
  intro position rest _
  refine ⟨position + Text.size content + 2, ?_⟩
  rw [List.cons_append, List.append_assoc, List.singleton_append,
    Piece.scan_markup (hkind rest) (hcut rest) hcontent, Markup.ofPieces_cons, hread]
  rfl

/-- Text is read up to the next construct. -/
theorem reads_text {s : List Char} (h : Spells ['&', '<'] s cs) (names : List String) :
    ∃ events, Event.merged events = Event.merged [.text (.ofList s)] ∧
      Reads AtMarkup names cs names events := by
  cases cs with
  | nil =>
    cases h
    exact ⟨[], rfl, .nil AtMarkup names⟩
  | cons c cs =>
    have hopen : '<' ∉ c :: cs := h.not_mem (by decide) (by decide)
    refine ⟨[.text (.ofList s)], rfl, fun position rest hrest => ?_⟩
    refine ⟨position + Text.size (c :: cs), ?_⟩
    rw [Piece.scan_text (List.cons_ne_nil c cs) hopen hrest, Markup.ofPieces_cons, Markup.read,
      resolve_of_spells h (by decide)]
    rfl

/-! ### Constructs -/

theorem MarkupKind.of?_tag (hc : c ≠ '!' ∧ c ≠ '?') (cs : List Char) :
    MarkupKind.of? (c :: cs) = some .tag := by
  simp [MarkupKind.of?, hc.1, hc.2]

/-- The slash at its end tells a tag that is start and end in one. -/
theorem Markup.ofContent_startTag (hc : c ≠ '/') (hlast : ∀ x ∈ (c :: cs).getLast?, x ≠ '/') :
    ofContent .tag (c :: cs) = .ok (.startTag (c :: cs) false) ∧
      ofContent .tag (c :: cs ++ ['/']) = .ok (.startTag (c :: cs) true) := by
  have hname (cs : List Char) : ∀ name, c :: cs = '/' :: name → False := by
    rintro name heq
    cases heq
    exact hc rfl
  have hplain : Text.stripEnd? ['/'] (c :: cs) = none := by
    rw [Option.eq_none_iff_forall_ne_some]
    intro rest hrest
    rw [Text.stripEnd?_eq_some_iff] at hrest
    rw [hrest, List.getLast?_concat] at hlast
    exact hlast '/' rfl rfl
  have hslash : Text.stripEnd? ['/'] (c :: cs ++ ['/']) = some (c :: cs) :=
    Text.stripEnd?_eq_some_iff.2 rfl
  refine ⟨?_, ?_⟩
  · rw [ofContent, hplain]
    exact hname cs
  · rw [List.cons_append] at hslash ⊢
    rw [ofContent, hslash]
    exact hname _

/-- A start tag, which is also an end if a slash follows its attributes, is read back. -/
theorem reads_startTag (htag : IsName tag.toList) (h : SpellsAttributes attributes cs)
    (hkeys : (attributes.map (·.key)).Nodup) (names : List String) :
    Reads (fun _ => True) names ('<' :: (tag.toList ++ cs ++ ['>'])) (tag :: names)
        [.start tag attributes] ∧
      Reads (fun _ => True) names ('<' :: (tag.toList ++ cs ++ ['/'] ++ ['>'])) names
        [.start tag attributes, .stop] := by
  have hread := Attribute.readAll_of_spells htag h hkeys
  have hplain : (tag.toList ++ cs).foldlM closeUnquoted none = some none := by
    simp only [List.foldlM_append, htag.foldlM, h.foldlM, Option.bind_eq_bind, Option.bind_some]
  have hslash : (tag.toList ++ cs ++ ['/']).foldlM closeUnquoted none = some none := by
    rw [List.foldlM_append, hplain]
    rfl
  have hlast : ∀ x ∈ (tag.toList ++ cs).getLast?, x ≠ '/' := by
    intro x hx
    rw [List.getLast?_append, Option.mem_def, Option.or_eq_some_iff] at hx
    rcases hx with hx | ⟨-, hx⟩
    · exact h.getLast x hx
    · rintro rfl
      exact absurd (htag.ne (List.mem_of_getLast? hx)).2 (by decide)
  obtain ⟨c, name, hchars⟩ := List.exists_cons_of_ne_nil htag.1
  have hc := (htag.ne (hchars ▸ List.mem_cons_self)).2
  simp only [List.mem_cons, List.not_mem_nil, or_false, not_or] at hc
  rw [hchars, List.cons_append] at hread hplain hslash hlast ⊢
  obtain ⟨hstart, hsingle⟩ := Markup.ofContent_startTag hc.2.2.1 hlast
  refine ⟨?_, ?_⟩
  · refine reads_markup _ .tag (fun rest => MarkupKind.of?_tag hc.2.2.2.2.2 _)
      (fun rest => cut_eq_of_foldlM hplain rfl rest) hstart fun position => ?_
    rw [Markup.read, hread]
    rfl
  · refine reads_markup _ .tag (fun rest => MarkupKind.of?_tag hc.2.2.2.2.2 _)
      (fun rest => cut_eq_of_foldlM hslash rfl rest) hsingle fun position => ?_
    rw [Markup.read, hread]
    rfl

theorem endTagName_blank (htag : IsName tag.toList) (hblank : IsBlank cs) :
    endTagName (tag.toList ++ cs) = tag := by
  have hend : ∀ c ∈ tag.toList.reverse.head?, isSpace c = false := by
    intro c hc
    exact (htag.ne (List.mem_reverse.1 (List.mem_of_mem_head? hc))).1
  obtain ⟨-, hdrop⟩ := span_append cs.reverse tag.toList.reverse
    (fun c hc => hblank c (List.mem_reverse.1 hc)) hend
  have hall : (tag.toList ++ cs).all isSpace = false := by
    obtain ⟨c, name, hchars⟩ := List.exists_cons_of_ne_nil htag.1
    rw [hchars, List.cons_append, List.all_cons, (htag.ne (hchars ▸ List.mem_cons_self)).1]
    rfl
  rw [endTagName, hall, List.reverse_append, hdrop, List.reverse_reverse]
  exact String.ofList_toList

/-- An end tag closes the innermost element, and may have blanks after its name. -/
theorem reads_endTag (htag : IsName tag.toList) (hblank : IsBlank cs) (names : List String) :
    Reads (fun _ => True) (tag :: names) ('<' :: ('/' :: tag.toList ++ cs ++ ['>'])) names
      [.stop] := by
  have hclose : closeUnquoted none '/' = some none := rfl
  have hcut : ('/' :: tag.toList ++ cs).foldlM closeUnquoted none = some none := by
    simp only [List.cons_append, List.foldlM_cons, List.foldlM_append, hclose, htag.foldlM,
      hblank.foldlM, Option.bind_eq_bind, Option.bind_some]
  have hcontent : Markup.ofContent .tag ('/' :: tag.toList ++ cs) = .ok (.endTag tag) :=
    congrArg (fun name => Except.ok (Markup.endTag name)) (endTagName_blank htag hblank)
  refine reads_markup _ .tag (fun rest => MarkupKind.of?_tag (by decide) _)
    (fun rest => cut_eq_of_foldlM hcut rfl rest) hcontent fun position => ?_
  rw [Markup.read, checkEnd, if_pos rfl]
  rfl

/-- The marks around a section of character data do not make up an end with what is inside. -/
theorem infix_of_cdata (h : "]]>".toList <:+: "![CDATA[".toList ++ raw ++ "]]".toList) :
    "]]>".toList <:+: raw := by
  have hsplit : "![CDATA[".toList ++ raw ++ "]]".toList =
      '!' :: '[' :: 'C' :: 'D' :: 'A' :: 'T' :: 'A' :: '[' :: (raw ++ [']'] ++ [']']) := by
    rw [List.append_assoc raw]
    rfl
  have hstart : [']', ']', '>'] <:+: raw ++ [']'] ++ [']'] := by
    have hmark : "]]>".toList = [']', ']', '>'] := rfl
    rw [hsplit, hmark] at h
    simpa only [List.infix_cons_iff, List.cons_prefix_cons, Char.reduceEq, false_and, false_or]
      using h
  -- A text that ends in `]]>` does not end in `]`.
  have hend (cs : List Char) (hin : [']', ']', '>'] <:+: cs ++ [']']) :
      [']', ']', '>'] <:+: cs := by
    rcases List.infix_concat_iff.1 hin with ⟨before, hbefore⟩ | hin
    · have hlast := congrArg List.getLast? hbefore
      rw [List.getLast?_concat, List.getLast?_append] at hlast
      exact absurd (Option.some.inj hlast) (by decide)
    · exact hin
  exact hend raw (hend _ hstart)

/-- A text without `]]>` does not end the section of character data that it stands in. -/
theorem cut_cdata (hraw : ¬ "]]>".toList <:+: raw) (rest : List Char) :
    MarkupKind.cdata.cut ("![CDATA[".toList ++ raw ++ "]]".toList ++ '>' :: rest) =
      some ("![CDATA[".toList ++ raw ++ "]]".toList, rest) := by
  refine cut_eq_of_foldlM (foldlM_closeAfter fun xs ys hsplit => ?_) ?_ rest
  · rw [List.append_nil, Bool.eq_false_iff]
    intro hclosed
    obtain ⟨before, hbefore⟩ := List.isPrefixOf_iff_prefix.1 hclosed
    have hxs : xs = before.reverse ++ "]]".toList := by
      rw [← List.reverse_reverse xs, ← hbefore, List.reverse_append]
      rfl
    refine hraw (infix_of_cdata ⟨before.reverse, ys, ?_⟩)
    rw [hsplit, hxs, List.append_assoc, List.append_assoc]
    rfl
  · rw [List.append_nil, List.reverse_append]
    rfl

/-- A section of character data is taken as it stands. -/
theorem reads_cdata (hraw : ¬ "]]>".toList <:+: raw) (names : List String) :
    Reads (fun _ => True) names ("<![CDATA[".toList ++ raw ++ "]]>".toList) names
      [.text (.ofList raw)] := by
  have hcontent : Markup.ofContent .cdata ("![CDATA[".toList ++ raw ++ "]]".toList) =
      .ok (.cdata raw) := by
    rw [Markup.ofContent, List.append_assoc, Text.stripStart?_eq_some_iff.2 rfl]
    simp only [List.length_append]
    exact congrArg (fun raw => Except.ok (Markup.cdata raw)) List.take_left
  have hreads := reads_markup names .cdata (fun rest => rfl) (cut_cdata hraw) hcontent
    fun position => rfl
  rw [List.append_assoc _ "]]".toList] at hreads
  exact hreads

/-- Where nothing but a `>` can close, a text without one goes on. -/
theorem cut_plain {closes : List Char → Bool} (hplain : '>' ∉ content)
    (hcloses : closes content.reverse) (rest : List Char) :
    cut (closeAfter closes) [] (content ++ '>' :: rest) = some (content, rest) := by
  refine cut_eq_of_foldlM (foldlM_closeAfter fun xs ys hsplit => ?_) ?_ rest
  · rw [hsplit, List.mem_append, not_or] at hplain
    exact absurd List.mem_cons_self hplain.2
  · rw [List.append_nil, closeAfter, hcloses]
    rfl

/-- Comments and instructions mean nothing. -/
theorem reads_other (hraw : '>' ∉ raw) (names : List String) :
    Reads (fun _ => True) names ("<!--".toList ++ raw ++ "-->".toList) names [] ∧
      Reads (fun _ => True) names ("<?".toList ++ raw ++ "?>".toList) names [] := by
  have hcomment : '>' ∉ "!--".toList ++ raw ++ "--".toList := by
    simp [hraw]
  have hinstruction : '>' ∉ "?".toList ++ raw ++ "?".toList := by
    simp [hraw]
  refine ⟨?_, ?_⟩
  · have hcloses : closesComment ("!--".toList ++ raw ++ "--".toList).reverse := by
      simp [closesComment]
    have hreads := reads_markup names .comment (fun rest => rfl) (cut_plain hcomment hcloses)
      rfl fun position => rfl
    rw [List.append_assoc _ "--".toList] at hreads
    exact hreads
  · have hcloses : ['?'].isPrefixOf ("?".toList ++ raw ++ "?".toList).reverse := by
      simp
    have hcontent : Markup.ofContent .instruction ("?".toList ++ raw ++ "?".toList) =
        .ok .other := by
      refine if_neg fun heq => ?_
      have hlength := congrArg List.length heq
      simp at hlength
    have hreads := reads_markup names .instruction (fun rest => rfl)
      (cut_plain hinstruction hcloses) hcontent fun position => rfl
    rw [List.append_assoc _ "?".toList] at hreads
    exact hreads

/-! ### Runs of text -/

/-- How the text between two tags is written: text with references, sections of character data and
constructs that mean nothing, in any order. -/
inductive SpellsRun : List Char → List Char → Prop
  | nil : SpellsRun [] []
  | text {s s' cs cs' : List Char} (hs : Spells ['&', '<'] s cs) (rest : SpellsRun s' cs') :
      SpellsRun (s ++ s') (cs ++ cs')
  | cdata {raw s cs : List Char} (hraw : ¬ "]]>".toList <:+: raw) (rest : SpellsRun s cs) :
      SpellsRun (raw ++ s) ("<![CDATA[".toList ++ raw ++ "]]>".toList ++ cs)
  | comment {raw s cs : List Char} (hraw : '>' ∉ raw) (rest : SpellsRun s cs) :
      SpellsRun s ("<!--".toList ++ raw ++ "-->".toList ++ cs)
  | instruction {raw s cs : List Char} (hraw : '>' ∉ raw) (rest : SpellsRun s cs) :
      SpellsRun s ("<?".toList ++ raw ++ "?>".toList ++ cs)

/-- The events of a text that is written in parts. -/
theorem Event.merged_text_append {s s' : List Char}
    (h : merged events = merged [.text (.ofList s)])
    (h' : merged events' = merged [.text (.ofList s')]) :
    merged (events ++ events') = merged [.text (.ofList (s ++ s'))] := by
  rw [merged_append_congr h h', String.ofList_append]
  exact merged_text_text [] (.ofList s) (.ofList s') []

/-- A construct inside a run of text ends the text before it. -/
theorem reads_inside {s₀ s cs₀ cs₁ : List Char} (h₀ : Spells ['&', '<'] s₀ cs₀)
    (h₁ : Reads (fun _ => True) names cs₁ names events) (s₁ : List Char)
    (hevents : Event.merged events = Event.merged [.text (.ofList s₁)])
    (hopen : ∀ rest, AtMarkup (cs₁ ++ rest))
    (hrest : ∃ events, Event.merged events = Event.merged [.text (.ofList s)] ∧
      Reads AtMarkup names cs names events) :
    ∃ events, Event.merged events = Event.merged [.text (.ofList (s₀ ++ (s₁ ++ s)))] ∧
      Reads AtMarkup names (cs₀ ++ (cs₁ ++ cs)) names events := by
  obtain ⟨events₀, hmerged₀, hreads₀⟩ := reads_text h₀ names
  obtain ⟨later, hmerged, hreads⟩ := hrest
  refine ⟨events₀ ++ (events ++ later),
    Event.merged_text_append hmerged₀ (Event.merged_text_append hevents hmerged), ?_⟩
  refine hreads₀.append (h₁.append hreads fun _ _ => trivial) fun rest _ => ?_
  rw [List.append_assoc]
  exact hopen _

/-- A run of text is read as one text, up to the next construct. The part `cs₀` before it is text
that is not cut off yet: texts one after the other are one piece. -/
theorem SpellsRun.reads_after {s₀ s cs₀ : List Char} (h : SpellsRun s cs)
    (h₀ : Spells ['&', '<'] s₀ cs₀) (names : List String) :
    ∃ events, Event.merged events = Event.merged [.text (.ofList (s₀ ++ s))] ∧
      Reads AtMarkup names (cs₀ ++ cs) names events := by
  induction h generalizing s₀ cs₀ with
  | nil =>
    rw [List.append_nil, List.append_nil]
    exact reads_text h₀ names
  | text hs rest ih =>
    rw [← List.append_assoc, ← List.append_assoc]
    exact ih (h₀.append hs)
  | cdata hraw rest ih =>
    exact reads_inside h₀ (reads_cdata hraw names) _ rfl (by rintro rest c ⟨⟩; rfl) (ih .nil)
  | comment hraw rest ih =>
    exact reads_inside h₀ (reads_other hraw names).1 [] rfl (by rintro rest c ⟨⟩; rfl) (ih .nil)
  | instruction hraw rest ih =>
    exact reads_inside h₀ (reads_other hraw names).2 [] rfl (by rintro rest c ⟨⟩; rfl) (ih .nil)

theorem SpellsRun.reads {s : List Char} (h : SpellsRun s cs) (names : List String) :
    ∃ events, Event.merged events = Event.merged [.text (.ofList s)] ∧
      Reads AtMarkup names cs names events :=
  h.reads_after .nil names

/-- A run is read before what stands after it. -/
theorem SpellsRun.reads_before {s : String} {names names' : List String} {later : List Event}
    (h : SpellsRun s.toList cs) (hat : ∀ rest, AtMarkup rest → AtMarkup (cs' ++ rest))
    (hlater : ∃ events, Event.merged events = Event.merged later ∧
      Reads AtMarkup names cs' names' events) :
    ∃ events, Event.merged events = Event.merged (.text s :: later) ∧
      Reads AtMarkup names (cs ++ cs') names' events := by
  obtain ⟨run, hrun, hreads⟩ := h.reads names
  obtain ⟨events, hevents, hreads'⟩ := hlater
  rw [String.ofList_toList] at hrun
  exact ⟨run ++ events, Event.merged_append_congr hrun hevents, hreads.append hreads' hat⟩

/-! ### Elements -/

/-- How neighbouring elements are written, each with its tail. An element without text and children
may be written as one tag. -/
inductive SpellsForest : List Element → List Char → Prop
  | nil : SpellsForest [] []
  | pair {tag text tail : String} {attributes : List Attribute} {children siblings : List Element}
      {keys inside content blank after rest : List Char}
      (htag : IsName tag.toList) (hkeys : SpellsAttributes attributes keys)
      (hnodup : (attributes.map (·.key)).Nodup) (htext : SpellsRun text.toList inside)
      (hchildren : SpellsForest children content) (hblank : IsBlank blank)
      (htail : SpellsRun tail.toList after) (hsiblings : SpellsForest siblings rest) :
      SpellsForest (⟨tag, attributes, text, tail, children⟩ :: siblings)
        ('<' :: (tag.toList ++ keys ++ ['>']) ++ inside ++ content
          ++ '<' :: ('/' :: tag.toList ++ blank ++ ['>']) ++ after ++ rest)
  | single {tag tail : String} {attributes : List Attribute} {siblings : List Element}
      {keys after rest : List Char}
      (htag : IsName tag.toList) (hkeys : SpellsAttributes attributes keys)
      (hnodup : (attributes.map (·.key)).Nodup) (htail : SpellsRun tail.toList after)
      (hsiblings : SpellsForest siblings rest) :
      SpellsForest (⟨tag, attributes, "", tail, []⟩ :: siblings)
        ('<' :: (tag.toList ++ keys ++ ['/'] ++ ['>']) ++ after ++ rest)

theorem SpellsForest.atMarkup {es : List Element} (h : SpellsForest es cs) (hrest : AtMarkup rest) :
    AtMarkup (cs ++ rest) := by
  cases h with
  | nil => exact hrest
  | pair | single =>
    rintro c ⟨⟩
    rfl

/-- Elements are read back. -/
theorem SpellsForest.reads {es : List Element} (h : SpellsForest es cs) (names : List String) :
    ∃ events, Event.merged events = Event.merged (Element.flattenAll es) ∧
      Reads AtMarkup names cs names events := by
  induction h generalizing names with
  | nil => exact ⟨[], rfl, .nil AtMarkup names⟩
  | @pair tag text tail attributes children siblings keys inside content blank after rest htag hkeys
      hnodup htext hchildren hblank htail hsiblings ihchildren ihsiblings =>
    obtain ⟨later, hlater, hreads⟩ :=
      htail.reads_before (fun _ => hsiblings.atMarkup) (ihsiblings names)
    obtain ⟨inner, hinner, hreadsInner⟩ := ihchildren (tag :: names)
    have hclose := (reads_endTag htag hblank names).append hreads fun _ _ => trivial
    have hopen (more : List Char) : AtMarkup
        ('<' :: ('/' :: tag.toList ++ blank ++ ['>']) ++ (after ++ rest) ++ more) := by
      rintro c ⟨⟩
      rfl
    obtain ⟨body, hbody, hreadsBody⟩ := htext.reads_before
      (fun more _ => List.append_assoc content _ more ▸ hchildren.atMarkup (hopen more))
      ⟨inner ++ ([.stop] ++ later), Event.merged_append_congr hinner
        (Event.merged_append_congr rfl hlater), hreadsInner.append hclose fun more _ => hopen more⟩
    refine ⟨[.start tag attributes] ++ body, ?_, ?_⟩
    · refine (Event.merged_append_congr rfl hbody).trans (congrArg Event.merged ?_)
      simp only [Element.flattenAll, Element.flatten, List.cons_append, List.nil_append,
        List.append_assoc]
    · have hreadsAll := (reads_startTag htag hkeys hnodup names).1.append hreadsBody
        fun _ _ => trivial
      simpa only [List.append_assoc, List.cons_append] using hreadsAll
  | @single tag tail attributes siblings keys after rest htag hkeys hnodup htail hsiblings ih =>
    obtain ⟨later, hlater, hreads⟩ := htail.reads_before (fun _ => hsiblings.atMarkup) (ih names)
    have hempty : Event.merged [.start tag attributes, .stop] =
        Event.merged [.start tag attributes, .text "", .stop] := rfl
    refine ⟨[.start tag attributes, .stop] ++ later,
      Event.merged_append_congr hempty hlater, ?_⟩
    rw [List.append_assoc]
    exact (reads_startTag htag hkeys hnodup names).2.append hreads fun _ _ => trivial

/-! ### Documents -/

variable {e : Element}

/-- How a document with the root `e` is written. Blanks, comments and instructions may stand before
and after the root. -/
inductive Element.Written (e : Element) : List Char → Prop
  | document {space space' before cs : List Char} (hspace : IsBlank space)
      (hbefore : SpellsRun space before) (hspace' : IsBlank space')
      (hroot : SpellsForest [{ e with tail := .ofList space' }] cs) : Written e (before ++ cs)

/-- What is written before the root does not start with a byte order mark. -/
theorem SpellsRun.head {space : List Char} (h : SpellsRun space cs) (hspace : IsBlank space)
    (hrest : AtMarkup rest) : ∀ c ∈ (cs ++ rest).head?, c ≠ '\uFEFF' := by
  induction h with
  | nil =>
    rintro c hc rfl
    exact absurd (hrest _ hc) (by decide)
  | text hs _ ih =>
    cases hs with
    | nil => exact ih hspace
    | plain hc rest =>
      rintro x ⟨⟩ rfl
      exact absurd (hspace _ List.mem_cons_self) (by decide)
    | entity hname rest =>
      rintro x ⟨⟩
      decide
  | cdata | comment | instruction =>
    rintro x ⟨⟩
    decide

theorem Element.dropMark_eq (h : ∀ c ∈ cs.head?, c ≠ '\uFEFF') : dropMark cs = cs := by
  unfold dropMark
  split
  · exact absurd rfl (h _ rfl)
  · rfl

/-- Text before and after an element does not matter to a tree. -/
theorem Element.ofEvents_between (e : Element) (s s' : String) :
    ofEvents ([.text s] ++ (e.flatten ++ [.text s'])) = .ok { e with tail := "" } := by
  rw [ofEvents, List.foldl_append, List.foldl_append, Builder.foldl_flatten]
  rfl

/-- Reading a document that a tree is written as gives the tree. -/
theorem parse_written {document : String} (h : e.Written document.toList) (htail : e.tail = "") :
    Element.parse document = .ok e := by
  generalize hcs : document.toList = cs at h
  obtain @⟨space, space', before, cs, hspace, hbefore, hspace', hroot⟩ := h
  obtain ⟨events₀, hmerged₀, hreads₀⟩ := hbefore.reads []
  obtain ⟨events, hmerged, hreads⟩ := hroot.reads []
  have hend : AtMarkup [] := fun _ hc => nomatch hc
  have hopen : AtMarkup cs := by
    have hmore := hroot.atMarkup hend
    rwa [List.append_nil] at hmore
  obtain ⟨next, hpieces⟩ := hreads₀.append hreads (fun _ => hroot.atMarkup) 0 [] hend
  have hevents : Element.events document = .ok (events₀ ++ events) := by
    rw [Element.events, hcs, Element.dropMark_eq (hbefore.head hspace hopen)]
    rw [List.append_nil, Piece.scan] at hpieces
    rw [hpieces]
    exact congrArg Except.ok (List.append_nil _)
  have hall : Event.merged (events₀ ++ events) = Event.merged
      ([.text (.ofList space)] ++ (e.flatten ++ [.text (.ofList space')])) := by
    refine Event.merged_append_congr hmerged₀ (hmerged.trans ?_)
    rw [Element.flattenAll, Element.flattenAll, Element.flatten_eq, Element.flatten_eq e]
    rfl
  obtain ⟨tag, attributes, text, tail, children⟩ := e
  obtain rfl : tail = "" := htail
  rw [Element.parse, hevents]
  exact (Element.ofEvents_congr hall).trans (Element.ofEvents_between _ _ _)

/-- A tree with attributes, text, an empty element and a tail. -/
def mixedTree : Element where
  tag := "a"
  attributes := [⟨"b", "<1"⟩, ⟨"c", ""⟩]
  text := "s&<t"
  children := [{ tag := "c", tail := "u" }, { tag := "d" }]

/-- The tree with a declaration, references, a comment, a section of character data, an empty tag
and blanks in tags. -/
def mixedDocument : String :=
  "<?xml?>\n<a b=\"&lt;1\" c = \"\"><!--x-->s&amp;<![CDATA[<t]]><c/>u<d ></d\n></a>\n"

theorem mixed_read_back :
    mixedTree.Written mixedDocument.toList ∧ mixedTree.tail = "" ∧
      Element.parse mixedDocument = .ok mixedTree := by
  have hkeys : SpellsAttributes mixedTree.attributes
      ([' '] ++ "b".toList ++ [] ++ '=' :: [] ++ '"' :: ('&' :: "lt".toList ++ ';' :: ['1']) ++
        '"' :: ([' '] ++ "c".toList ++ [' '] ++ '=' :: [' '] ++ '"' :: [] ++ '"' :: [])) :=
    .cons (by decide) (by decide) (by decide) (by decide) (by decide)
      (.entity (by decide) (.plain (by decide) .nil))
      (.cons (by decide) (by decide) (by decide) (by decide) (by decide) .nil (.nil (by decide)))
  have hcdata : SpellsRun (['<', 't'] ++ [])
      ("<![CDATA[".toList ++ ['<', 't'] ++ "]]>".toList ++ []) := .cdata (by decide) .nil
  have htext : SpellsRun "s&<t".toList
      ("<!--".toList ++ ['x'] ++ "-->".toList ++ (('s' :: ('&' :: "amp".toList ++ ';' :: [])) ++
        ("<![CDATA[".toList ++ ['<', 't'] ++ "]]>".toList ++ []))) :=
    have hchars : "s&<t".toList = ['s', '&'] ++ (['<', 't'] ++ []) := rfl
    hchars ▸ .comment (by decide) (.text (.plain (by decide) (.entity (by decide) .nil)) hcdata)
  have hline : SpellsRun (['\n'] ++ []) (['\n'] ++ []) := .text (.plain (by decide) .nil) .nil
  have htail : SpellsRun (['u'] ++ []) (['u'] ++ []) := .text (.plain (by decide) .nil) .nil
  have hd : SpellsForest [{ tag := "d" }] _ :=
    .pair (by decide) (.nil (by decide : IsBlank [' '])) (by decide) .nil .nil
      (by decide : IsBlank ['\n']) .nil .nil
  have hchildren : SpellsForest mixedTree.children _ :=
    .single (by decide) (.nil (by decide : IsBlank [])) (by decide) htail hd
  have hroot : SpellsForest [{ mixedTree with tail := .ofList ['\n'] }] _ :=
    .pair (by decide) hkeys (by decide) htext hchildren (by decide : IsBlank []) hline .nil
  have hbefore : SpellsRun ['\n'] ("<?".toList ++ "xml".toList ++ "?>".toList ++ (['\n'] ++ [])) :=
    .instruction (by decide) hline
  have hwritten : mixedTree.Written mixedDocument.toList := by
    refine (congrArg mixedTree.Written ?_).mp (.document (by decide) hbefore (by decide) hroot)
    decide
  exact ⟨hwritten, rfl, parse_written hwritten rfl⟩

end ApiHeaders.Xml
