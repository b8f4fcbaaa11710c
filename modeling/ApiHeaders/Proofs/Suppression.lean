import ApiHeaders.Proofs.BlockComments
import ApiHeaders.Proofs.Pieces
import ApiHeaders.Proofs.Trimming
import ApiHeaders.Proofs.Written

/-!
# Declarations that are commented out

A declaration that another set has written before is shown without its documentation, in a comment.
Its `*/` are broken line by line, so the comment ends where the last line does.

## Main definitions

* `Text.commentedOut` puts lines into a comment.

## Main statements

* `Text.lines_replaceTerminator` and `Text.splitOn_breakTerminator` say that lines stay what they
  are where terminators are broken.
* `Declaration.render_withoutDoc` sets a declaration apart from its documentation.
* `suppressed_commented_out` says what a set shows of a declaration with another writer.
-/

namespace ApiHeaders

namespace Text

variable {c : Char} {cs : List Char}

/-! ### Broken terminators and lines -/

/-- Terminators are broken on either side of a character that belongs to none. -/
theorem breakTerminator_append_cons (hstar : c ≠ '*') (hslash : c ≠ '/') (xs ys : List Char) :
    breakTerminator (xs ++ c :: ys) = breakTerminator xs ++ c :: breakTerminator ys := by
  have hcons (ds : List Char) : breakTerminator (c :: ds) = c :: breakTerminator ds :=
    breakTerminator.eq_2 c ds fun _ h => absurd h hstar
  fun_induction breakTerminator xs with
  | case1 xs ih => simp [breakTerminator, ih]
  | case2 x xs hx ih =>
    rw [List.cons_append, List.cons_append, ← ih]
    refine breakTerminator.eq_2 x _ fun rest hstar' heq => ?_
    cases xs with
    | nil => exact hslash (List.cons.inj heq).1
    | cons y ys => exact hx ys hstar' (by rw [(List.cons.inj heq).1])
  | case3 => exact hcons ys

@[simp] theorem breakTerminator_nil : breakTerminator [] = [] := rfl

theorem breakTerminator_eq_nil_iff : breakTerminator cs = [] ↔ cs = [] := by
  fun_cases breakTerminator cs <;> simp

theorem not_mem_breakTerminator (hc : c ≠ ' ') (h : c ∉ cs) : c ∉ breakTerminator cs := by
  fun_induction breakTerminator cs with
  | case1 cs ih => simp_all
  | case2 d cs _ ih => simp_all
  | case3 => exact h

theorem getLast?_breakTerminator (cs : List Char) :
    (breakTerminator cs).getLast? = cs.getLast? := by
  fun_induction breakTerminator cs with
  | case1 cs ih => simp [List.getLast?_cons, ih]
  | case2 c cs _ ih => simp [List.getLast?_cons, ih]
  | case3 => rfl

theorem breakTerminator_intercalate {pieces : List (List Char)} :
    breakTerminator (['\n'].intercalate pieces) =
      ['\n'].intercalate (pieces.map breakTerminator) := by
  induction pieces with
  | nil => rfl
  | cons piece pieces ih =>
    cases pieces with
    | nil => simp [List.intercalate_singleton]
    | cons next rest =>
      rw [List.intercalate_cons_cons, List.append_assoc, List.singleton_append,
        breakTerminator_append_cons (by decide) (by decide), ih]
      simp [List.intercalate_cons_cons]

theorem splitOn_breakTerminator (cs : List Char) :
    splitOn '\n' (breakTerminator cs) = (splitOn '\n' cs).map breakTerminator := by
  have hcs : breakTerminator cs = ['\n'].intercalate ((splitOn '\n' cs).map breakTerminator) := by
    rw [← breakTerminator_intercalate, intercalate_splitOn]
  rw [hcs, splitOn_intercalate (by simpa using splitOn_ne_nil '\n' cs)]
  intro piece hpiece
  obtain ⟨whole, hwhole, rfl⟩ := List.mem_map.1 hpiece
  exact not_mem_breakTerminator (by decide) (not_mem_of_mem_splitOn hwhole)

theorem dropReturn_concat (cs : List Char) : dropReturn (cs ++ ['\r']) = cs := by
  rw [dropReturn, stripEnd?_eq_some_iff.2 rfl, Option.getD_some]

theorem dropReturn_of_getLast? (h : cs.getLast? ≠ some '\r') : dropReturn cs = cs := by
  cases hstrip : stripEnd? ['\r'] cs with
  | none => rw [dropReturn, hstrip, Option.getD_none]
  | some rest =>
    rw [stripEnd?_eq_some_iff.1 hstrip, List.getLast?_concat] at h
    exact absurd rfl h

theorem dropReturn_breakTerminator (cs : List Char) :
    dropReturn (breakTerminator cs) = breakTerminator (dropReturn cs) := by
  by_cases hlast : cs.getLast? = some '\r'
  · obtain ⟨rest, rfl⟩ := List.getLast?_eq_some_iff.1 hlast
    rw [dropReturn_concat, breakTerminator_append_cons (by decide) (by decide),
      breakTerminator_nil, dropReturn_concat]
  · rw [dropReturn_of_getLast? hlast, dropReturn_of_getLast?]
    rwa [getLast?_breakTerminator]

/-- All pieces but the last are lines, and the last one is unless it is empty. -/
theorem lines_of_splitOn {s : String} {init : List (List Char)} {last : List Char}
    (h : splitOn '\n' s.toList = init ++ [last]) :
    lines s = (init.map dropReturn ++ if last = [] then [] else [last]).map .ofList := by
  simp only [lines, h, List.dropLast_concat, List.getLast?_concat]
  by_cases hlast : last = [] <;> simp [hlast]

theorem exists_splitOn_concat (cs : List Char) : ∃ init last, splitOn '\n' cs = init ++ [last] := by
  rcases List.eq_nil_or_concat (splitOn '\n' cs) with hnil | ⟨init, last, hsplit⟩
  · exact absurd hnil (splitOn_ne_nil '\n' cs)
  · exact ⟨init, last, by rw [hsplit, List.concat_eq_append]⟩

/-- Terminators are broken line by line. -/
theorem lines_replaceTerminator (s : String) :
    lines (replaceTerminator s) = (lines s).map replaceTerminator := by
  obtain ⟨init, last, hsplit⟩ := exists_splitOn_concat s.toList
  have hbroken : splitOn '\n' (replaceTerminator s).toList =
      init.map breakTerminator ++ [breakTerminator last] := by
    rw [replaceTerminator, String.toList_ofList, splitOn_breakTerminator, hsplit, List.map_append]
    rfl
  rw [lines_of_splitOn hsplit, lines_of_splitOn hbroken]
  by_cases hlast : last = [] <;>
    simp [hlast, breakTerminator_eq_nil_iff, Function.comp_def, replaceTerminator,
      dropReturn_breakTerminator]

/-- What stands behind complete lines begins a line. -/
theorem lines_append_break (a b : String) :
    lines (a ++ "\n" ++ b) = lines (a ++ "\n") ++ lines b := by
  obtain ⟨init, last, hsplit⟩ := exists_splitOn_concat b.toList
  have hbreak : "\n".toList = ['\n'] := rfl
  have hall : splitOn '\n' (a ++ "\n" ++ b).toList =
      (splitOn '\n' a.toList ++ init) ++ [last] := by
    rw [String.toList_append, String.toList_append, hbreak, List.append_assoc,
      List.singleton_append, splitOn_append_cons, hsplit, List.append_assoc]
  have hfirst : splitOn '\n' (a ++ "\n").toList = splitOn '\n' a.toList ++ [[]] := by
    rw [String.toList_append, hbreak, splitOn_append_cons]
    rfl
  rw [lines_of_splitOn hall, lines_of_splitOn hfirst, lines_of_splitOn hsplit]
  simp

/-! ### Lines in a comment -/

/-- Lines as a comment. A single one stands between the ends of the comment, several stand below
each other, without blanks at their ends. -/
def commentedOut : List String → List String
  | [line] => ["/* " ++ line ++ " */"]
  | ls => ["/*"] ++ ls.map (fun line => .ofList (trimEnd (" * " ++ line).toList)) ++ [" */"]

theorem unlines_cons_append (x y : String) (ls : List String) :
    unlines (x :: ls ++ [y]) = x ++ "\n" ++ String.join (ls.map (· ++ "\n")) ++ y := by
  induction ls generalizing x with
  | nil => simp [unlines, String.intercalate_cons_cons]
  | cons l ls ih =>
    simp only [unlines] at ih ⊢
    rw [List.cons_append, List.cons_append, String.intercalate_cons_cons, ← List.cons_append, ih,
      List.map_cons, String.join_cons]
    simp only [String.append_assoc]

theorem isComment_commentedOut {ls : List String} (h : ∀ l ∈ ls, ¬HasTerminator l.toList) :
    IsComment (unlines (commentedOut ls)).toList := by
  have hopen : ['/', '*'] <+: ['/', '*'] := List.prefix_rfl
  unfold commentedOut
  split
  · next line =>
    have hline := (isComment_iff (c := ' ') (d := ' ') hopen (by decide) (by decide) (by decide)).2
      (h line List.mem_cons_self)
    simpa [unlines, String.intercalate_singleton] using hline
  · rw [List.singleton_append, unlines_cons_append]
    have hbody : ¬HasTerminator (String.join ((ls.map fun line =>
        String.ofList (trimEnd (" * " ++ line).toList)).map (· ++ "\n"))).toList := by
      rw [hasTerminator_join]
      rintro ⟨line, hline, hmem⟩
      obtain ⟨l, hl, rfl⟩ := List.mem_map.1 hline
      rw [String.toList_ofList, trimEnd_eq_rdropWhile, hasTerminator_rdropWhile (by decide),
        hasTerminator_starred] at hmem
      exact h l hl hmem
    have hall := (isComment_iff (c := '\n') (d := ' ') hopen (by decide) (by decide) (by decide)).2
      hbody
    simpa [String.toList_append] using hall

end Text

theorem suppressed_eq (text : String) :
    suppressed text = Text.commentedOut ((Text.lines text).map Text.replaceTerminator) := by
  rw [suppressed, Text.lines_replaceTerminator]
  rfl

/-- Whatever a text holds, nothing of it is live once it is commented out. -/
theorem isComment_suppressed (text : String) :
    Text.IsComment (Text.unlines (suppressed text)).toList := by
  rw [suppressed_eq]
  refine Text.isComment_commentedOut fun l hl => ?_
  obtain ⟨l, -, rfl⟩ := List.mem_map.1 hl
  rw [Text.replaceTerminator, String.toList_ofList]
  exact Text.not_hasTerminator_breakTerminator _

/-! ### Declarations without documentation -/

variable {r : Registry} {s : ApiSet} {t : Target} {p : Pass} {d : Declaration} {name : String}

/-- With complete lines in front of it, a text ends in the lines that it had. -/
theorem lines_dropFinalBreaks_suffix (doc text : String) :
    Text.lines (dropFinalBreaks text) <:+ Text.lines (dropFinalBreaks (doc ++ "\n" ++ text)) := by
  by_cases hnil : text.toList.rdropWhile (· = '\n') = []
  · rw [dropFinalBreaks_eq, hnil]
    exact List.nil_suffix
  · have hdrop : dropFinalBreaks (doc ++ "\n" ++ text) = doc ++ "\n" ++ dropFinalBreaks text := by
      rw [dropFinalBreaks_eq, dropFinalBreaks_eq, String.toList_append, Text.rdropWhile_append hnil,
        String.ofList_append, String.ofList_toList]
    rw [hdrop, Text.lines_append_break]
    exact List.suffix_append ..

@[simp] theorem Doc.render_without (groups : Table String (List String))
    (property : Option Property) : render groups property none = "" := rfl

theorem Command.prototype_eq (c : Command) (r : Registry) (t : Target) :
    c.prototype r t = Doc.render r.groups none c.doc ++ ({ c with doc := none }).prototype r t := by
  unfold prototype
  rw [Doc.render_without, String.empty_append]
  simp only [String.append_assoc]
  rfl

theorem Enumerant.render_eq (e : Enumerant) (r : Registry) (form : Form) :
    e.render r form =
      Doc.render r.groups e.property e.doc ++ ({ e with doc := none }).render r form := by
  unfold render
  rw [Doc.render_without, String.empty_append]

theorem Typedef.render_eq (d : Typedef) (r : Registry) (form : Form) :
    d.render r form = Doc.render r.groups none d.doc ++ ({ d with doc := none }).render r form := by
  unfold render
  rw [Doc.render_without, String.empty_append]

theorem Verbatim.render_eq (v : Verbatim) (r : Registry) (form : Form) :
    v.render r form =
      (({ v with doc := none }).render r form).map (Doc.render r.groups none v.doc ++ ·) := by
  have hkind : ({ v with doc := none }).isFunctionPointer = v.isFunctionPointer := rfl
  simp only [render, Doc.render_without, String.empty_append, hkind]
  split
  · split <;> rfl
  · rfl

/-- A declaration is its documentation, if it shows any, above what it is without it. -/
theorem Declaration.render_withoutDoc {pointer : Bool} {bare : String}
    (h : d.withoutDoc.render pointer r t = .ok bare) :
    ∃ property doc text, bare = dropFinalBreaks text ∧
      d.render pointer r t = .ok (dropFinalBreaks (Doc.render r.groups property doc ++ text)) := by
  cases d with
  | command c =>
    cases pointer with
    | true =>
      obtain rfl := Except.ok.inj h
      exact ⟨none, none, c.pointerType r t.form, rfl, rfl⟩
    | false =>
      obtain rfl := Except.ok.inj h
      exact ⟨none, c.doc, _, rfl, map_eq_ok.2 ⟨_, congrArg Except.ok (c.prototype_eq r t), rfl⟩⟩
  | enumerant e =>
    obtain rfl := Except.ok.inj h
    exact ⟨e.property, e.doc, _, rfl,
      map_eq_ok.2 ⟨_, congrArg Except.ok (e.render_eq r t.form), rfl⟩⟩
  | typedef d =>
    obtain rfl := Except.ok.inj h
    exact ⟨none, d.doc, _, rfl, map_eq_ok.2 ⟨_, congrArg Except.ok (d.render_eq r t.form), rfl⟩⟩
  | verbatim v =>
    obtain ⟨text, htext, rfl⟩ := map_eq_ok.1 h
    refine ⟨none, v.doc, text, rfl, map_eq_ok.2 ⟨_, ?_, rfl⟩⟩
    exact (v.render_eq r t.form).trans (congrArg _ htext)
  | header => cases h

/-! ### Suppressed declarations -/

/-- What a set shows of a declaration that another set has written is one comment. It holds the
lines that the declaration has without its documentation, with their terminators broken; in the live
form these lines stand below the documentation. -/
theorem suppressed_commented_out {guard : Bool} {lines : List String} {writer : String}
    (h : (s.inlineLines r t guard).result = .ok lines) (hname : name ∈ s.targeted t)
    (hfind : r.find? name = some d) (hwriter : r.writtenBy? name = some writer)
    (hother : writer ≠ s.name) (hp : p ∈ Pass.order s.kind) (haccepts : p.accepts d) :
    ∃ items bare live, (s.items r t).result = .ok items ∧
      lines = s.opening r guard ++ items.flatMap Item.lines ++ s.closing guard ∧
      d.withoutDoc.render (decide (p = .pointers)) r t = .ok bare ∧
      d.render (decide (p = .pointers)) r t = .ok live ∧ Text.lines bare <:+ Text.lines live ∧
      (∃ b, (name, b) ∈ s.emissions r t p) ∧
      ∀ b, (name, b) ∈ s.emissions r t p → .block b ∈ items ∧
        b.lines = Text.commentedOut ((Text.lines bare).map Text.replaceTerminator) ∧
        Text.IsComment (Text.unlines b.lines).toList := by
  obtain ⟨items, hitems, rfl⟩ := map_eq_ok.1 (ApiSet.result_inlineLines guard ▸ h)
  have hd : (name, d) ∈ s.resolved r t p :=
    ApiSet.mem_resolved.2 ⟨hname, Option.filter_eq_some_iff.2 ⟨hfind, haccepts⟩⟩
  -- every block of the declaration stands for the same bare text
  have hsuppressed : ∀ b, (name, b) ∈ s.emissions r t p →
      ∃ bare, d.withoutDoc.render (decide (p = .pointers)) r t = .ok bare ∧
        b.lines = suppressed bare := by
    intro b hb
    obtain ⟨hdeclaration, hlive, bare, hbare⟩ := Block.follows_of_mem_emissions hb
    rw [if_neg (by simpa using hlive.2 ⟨writer, hwriter, hother⟩)] at hbare
    obtain rfl : d = b.declaration := Option.some.inj (hfind.symm.trans hdeclaration)
    exact ⟨bare, hbare⟩
  obtain ⟨b, hb⟩ := ApiSet.exists_mem_emissions hitems hp hd
  obtain ⟨bare, hbare, -⟩ := hsuppressed b hb
  obtain ⟨property, doc, text, rfl, hlive⟩ := Declaration.render_withoutDoc hbare
  refine ⟨items, _, _, hitems, rfl, hbare, hlive, ?_, ⟨b, hb⟩, ?_⟩
  · rcases Doc.render_eq_or r.groups property doc with hdoc | ⟨docLines, hdoc⟩
    · rw [hdoc, String.empty_append]
    · rw [hdoc]
      exact lines_dropFinalBreaks_suffix docLines text
  · intro b hb
    obtain ⟨bare, hbare', hlines⟩ := hsuppressed b hb
    obtain rfl : dropFinalBreaks text = bare := Except.ok.inj (hbare.symm.trans hbare')
    rw [hlines]
    exact ⟨ApiSet.block_mem_items hitems hp hb, suppressed_eq _, isComment_suppressed _⟩

/-- A registry in which the feature `A` has written a type. Its text, and its documentation even
more, would end a comment again and again. -/
def hostileRegistry : Registry :=
  let hostile : Verbatim := {
    name := "AL_T"
    category := none
    repr := "typedef int AL_T; /* **/\n/ */*/ *\n/int x;/*"
    doc := some ["Ends */ here."]
    deprecated := none }
  let lender : ApiSet := {
    kind := .feature
    name := "A"
    apis := ["al"]
    requirements := [{ names := ["AL_T"] }]
    annex := none
    doc := none }
  (({} : Registry).insert (.verbatim hostile)).markWritten lender

/-- A feature that requires what `hostileRegistry` declares. -/
def hostileFeature : ApiSet where
  kind := .feature
  name := "B"
  apis := ["al"]
  requirements := [{ names := ["AL_T"] }]
  annex := none
  doc := none

/-- The type, commented out. -/
theorem hostile_text_commented_out :
    let t := Target.of ⟨"al.h"⟩ ["al"] .header
    ∃ b, ("AL_T", b) ∈ hostileFeature.emissions hostileRegistry t .types ∧
      b.lines = ["/*", " * typedef int AL_T; /* ** /", " * / * /* / *", " * /int x;/*", " */"] ∧
      Text.IsComment (Text.unlines b.lines).toList := by
  intro t
  obtain ⟨lines, h⟩ : ∃ lines,
      (hostileFeature.inlineLines hostileRegistry t true).result = .ok lines := ⟨_, rfl⟩
  have hname : "AL_T" ∈ hostileFeature.targeted t := by decide
  have hwriter : hostileRegistry.writtenBy? "AL_T" = some "A" := rfl
  obtain ⟨items, bare, live, -, -, hbare, -, -, ⟨b, hb⟩, hblocks⟩ :=
    suppressed_commented_out (p := .types) h hname rfl hwriter (by decide) (by decide) rfl
  obtain ⟨-, hlines, hcomment⟩ := hblocks b hb
  refine ⟨b, hb, ?_, hcomment⟩
  rw [hlines, ← Except.ok.inj hbare]
  decide +kernel

end ApiHeaders
