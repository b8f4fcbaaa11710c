import ApiHeaders.Proofs.Cluster

/-!
# What is reached in a cluster

The chapters that stand in a header are read when the header is read. By then their guards are
defined, and the chapters in its satellites are left out, wherever reading starts.

## Main definitions

* `Cluster.place` is the place of a line of a chapter, `Cluster.members` are the files.

## Main statements

* `Cluster.Legible.readFile_header` and `Cluster.Legible.readFile_satellite` say what reading
  reaches that starts at the header or at a satellite.
* `Cluster.Legible.reached_iff` says that it reaches a chapter exactly if that stands in the header.
-/

namespace ApiHeaders

namespace Cluster

variable {k : Cluster} {absent files : List String} {directory : String → Option String}
  {holds : List String → String → Bool} {c : Chapter} {e : Satellite} {macros : List String}
  {depth : Nat}

/-- A chapter whose guard is not defined is read, and defines it. -/
theorem keeps_around {load : String → List String → List Place × List String}
    {kept : List String} {hidden : Place → Prop} {file : String} {n : Nat} {lines : List String}
    (hword : Directive.isWord c.name) (hlines : Nested (c.doc ++ lines))
    (hname : c.name ∉ macros) (hplaces : ∀ n, ¬hidden ⟨file, n⟩)
    (hx : Keeps kept hidden (c.name :: macros)
      (readText holds load (numbered file (n + 2) (c.doc ++ lines)) (c.name :: macros))) :
    Keeps kept hidden (c.name :: macros)
        (readText holds load (numbered file n (c.around lines)) macros) ∧
      (readText holds load (numbered file (n + 2) (c.doc ++ lines)) (c.name :: macros)).1 ⊆
        (readText holds load (numbered file n (c.around lines)) macros).1 := by
  have hinner := nested_define_one c.name hlines
  rw [Chapter.around, readText_numbered_append (nested_fence c.name hinner), readText_blank,
    readText_fence_of_not_mem hword hinner hname, numbered, readText_define_one hword]
  refine ⟨⟨hx.same, ?_⟩, ?_⟩
  · intro place hplace
    simp only [List.cons_append, List.mem_cons, List.mem_append, List.append_assoc,
      List.not_mem_nil, or_false, false_or] at hplace
    rcases hplace with rfl | rfl | hplace | rfl | rfl
    · exact hplaces _
    · exact hplaces _
    · exact hx.hides place hplace
    · exact hplaces _
    · exact hplaces _
  · intro place hplace
    refine List.mem_append_left _ (List.mem_append_left _ ?_)
    exact List.mem_cons_of_mem _ (List.mem_cons_of_mem _ hplace)

/-- The line of the header at which the body of a chapter begins that comes after others. -/
def position (k : Cluster) (xs : List Chapter) (c : Chapter) : Nat :=
  k.license.length + 2 + k.front.length + (xs.flatMap (·.inHeader)).length + 2 + c.doc.length

namespace Legible

theorem absent_cons (h : k.Legible absent files directory) (hc : c ∈ k.chapters)
    (habsent : ∀ m ∈ absent, m ∉ macros) : ∀ m ∈ absent, m ∉ c.name :: macros := by
  intro m hm hmem
  rcases List.mem_cons.1 hmem with rfl | hmem
  · exact h.disjoint _ hm (List.mem_cons_of_mem _ (List.mem_map_of_mem hc))
  · exact habsent m hm hmem

theorem keeps_doc (h : k.Legible absent files directory) (hc : c ∈ k.chapters)
    (hguard : k.guard ∈ macros) (n : Nat) :
    Keeps (k.guards ++ absent) k.Hidden macros
      (readText holds (readFile holds directory depth) (numbered k.file n c.doc) macros) :=
  (h.doc c hc).keeps (h.calm_files hguard) fun _ _ => h.not_hidden_header _

/-- A chapter that stands in the header is read with it. -/
theorem readText_inline (h : k.Legible absent files directory)
    (holds : List String → String → Bool) (depth : Nat) (hc : c ∈ k.chapters)
    (he : c.satellite = none) (hguard : k.guard ∈ macros) (hname : c.name ∉ macros)
    (habsent : ∀ m ∈ absent, m ∉ macros) (n : Nat) :
    let x := readText holds (readFile holds directory depth)
      (numbered k.file n (c.around c.body)) macros
    Keeps (k.guards ++ absent) k.Hidden (c.name :: macros) x ∧
      ∀ i < c.body.length, ⟨k.file, n + 2 + c.doc.length + i⟩ ∈ x.1 := by
  have hdoc := (h.doc c hc).nested
  have hclear := h.body c hc he
  have hbody : Tame (k.guards ++ absent) files c.body :=
    ⟨h.nested_body c hc, fun line hline => isHarmless_of_isClear (hclear line hline)⟩
  have hguard' : k.guard ∈ c.name :: macros := List.mem_cons_of_mem _ hguard
  have hcalm : Calm (k.guards ++ absent) files k.Hidden (readFile holds directory depth)
      (c.name :: macros) := h.calm_files hguard'
  have hdockeeps : Keeps (k.guards ++ absent) k.Hidden (c.name :: macros)
      (readText holds (readFile holds directory depth) (numbered k.file (n + 2) c.doc)
        (c.name :: macros)) := h.keeps_doc hc hguard' (n + 2)
  have hkeeps := keeps_numbered_append hdoc hdockeeps fun macros' hsame =>
    hbody.keeps (hcalm.of_same hsame) fun i _ => h.not_hidden_header _
  obtain ⟨haround, hsub⟩ := keeps_around (h.words c hc) (hdoc.append hbody.nested) hname
    h.not_hidden_header hkeeps
  refine ⟨haround, fun i hi => hsub ?_⟩
  obtain ⟨line, hline⟩ : ∃ line, (⟨k.file, n + 2 + c.doc.length + i⟩, line) ∈
      numbered k.file (n + 2 + c.doc.length) c.body := mem_numbered hi
  rw [readText_numbered_append hdoc]
  refine List.mem_append_right _ (mem_readText (List.subset_append_right k.guards absent)
    (hcalm.of_same hdockeeps.same) (fun m hm hmem => ?_) (fun y hy => ?_) hline)
  · have hmem' := (hdockeeps.same m (List.mem_append_right _ hm)).1 hmem
    exact h.absent_cons hc habsent m hm hmem'
  · apply hclear y.2
    rw [← map_snd_numbered k.file (n + 2 + c.doc.length) c.body]
    exact List.mem_map_of_mem hy

/-- The satellite that the header refers to is left out. -/
theorem keeps_reference (h : k.Legible absent files directory) (hc : c ∈ k.chapters)
    (he : c.satellite = some e) (hguard : k.guard ∈ macros) (hname : c.name ∉ macros) (n : Nat) :
    Keeps (k.guards ++ absent) k.Hidden (c.name :: macros)
      (readText holds (readFile holds directory depth)
        (numbered k.file n (c.around ["#include \"" ++ e.file ++ "\""])) macros) := by
  obtain ⟨-, -, -, -, hquote, -⟩ := h.satellite c hc e he
  have hdoc := (h.doc c hc).nested
  have hguard' : k.guard ∈ c.name :: macros := List.mem_cons_of_mem _ hguard
  have hkeeps : Keeps (k.guards ++ absent) k.Hidden (c.name :: macros)
      (readText holds (readFile holds directory depth)
        (numbered k.file (n + 2) (c.doc ++ ["#include \"" ++ e.file ++ "\""]))
        (c.name :: macros)) := by
    apply keeps_numbered_append hdoc (h.keeps_doc hc hguard' _)
    intro macros' hsame
    have hname' : c.name ∈ macros' := (hsame c.name (mem_kept_name hc)).2 List.mem_cons_self
    have hguard'' : k.guard ∈ macros' := (hsame k.guard mem_kept_guard).2 hguard'
    simp only [numbered, readText_include hquote]
    exact (Keeps.single (h.not_hidden_header _)).append (h.keeps_satellite hc he hguard'' hname')
  obtain ⟨haround, -⟩ := keeps_around (h.words c hc) (hdoc.append (nested_include _)) hname
    h.not_hidden_header hkeeps
  exact haround

/-- A chapter in the header is read, but the satellite that it refers to is not. -/
theorem readText_inHeader (h : k.Legible absent files directory)
    (holds : List String → String → Bool) (depth : Nat) (hc : c ∈ k.chapters)
    (hguard : k.guard ∈ macros) (hname : c.name ∉ macros) (habsent : ∀ m ∈ absent, m ∉ macros)
    (n : Nat) :
    let x := readText holds (readFile holds directory depth) (numbered k.file n c.inHeader) macros
    Keeps (k.guards ++ absent) k.Hidden (c.name :: macros) x ∧
      (c.satellite = none → ∀ i < c.body.length, ⟨k.file, n + 2 + c.doc.length + i⟩ ∈ x.1) := by
  unfold Chapter.inHeader
  cases he : c.satellite with
  | none =>
    obtain ⟨hkeeps, hreached⟩ := h.readText_inline holds depth hc he hguard hname habsent n
    exact ⟨hkeeps, fun _ => hreached⟩
  | some e => exact ⟨h.keeps_reference hc he hguard hname n, nofun⟩

/-- Chapters in the header are read one after the other. -/
theorem readText_chapters (h : k.Legible absent files directory)
    (holds : List String → String → Bool) (depth : Nat) (cs : List Chapter)
    (hsub : cs ⊆ k.chapters) (hnodup : (cs.map (·.name)).Nodup) (hguard : k.guard ∈ macros)
    (hnames : ∀ c ∈ cs, c.name ∉ macros) (habsent : ∀ m ∈ absent, m ∉ macros) (n : Nat) :
    let x := readText holds (readFile holds directory depth)
      (numbered k.file n (cs.flatMap (·.inHeader))) macros
    Keeps (k.guards ++ absent) k.Hidden (cs.map (·.name) ++ macros) x ∧
      ∀ xs c ys, cs = xs ++ c :: ys → c.satellite = none → ∀ i < c.body.length,
        ⟨k.file, n + (xs.flatMap (·.inHeader)).length + 2 + c.doc.length + i⟩ ∈ x.1 := by
  induction cs generalizing macros n with
  | nil => exact ⟨.nil .., fun xs c ys hsplit => by simp at hsplit⟩
  | cons c cs ih =>
    have hc : c ∈ k.chapters := hsub List.mem_cons_self
    obtain ⟨hnew, hnodup⟩ := List.nodup_cons.1 hnodup
    have hname : c.name ∉ macros := hnames c List.mem_cons_self
    obtain ⟨hfirst, hreached⟩ := h.readText_inHeader holds depth hc hguard hname habsent n
    have hsame := hfirst.same
    have hnames' : ∀ d ∈ cs, d.name ∉ (readText holds (readFile holds directory depth)
        (numbered k.file n c.inHeader) macros).2 := by
      intro d hd hmem
      have hkept : d.name ∈ k.guards ++ absent := mem_kept_name (hsub (List.mem_cons_of_mem _ hd))
      rcases List.mem_cons.1 ((hsame _ hkept).1 hmem) with heq | hmem
      · exact hnew (List.mem_map.2 ⟨d, hd, heq⟩)
      · exact hnames d (List.mem_cons_of_mem _ hd) hmem
    have habsent' : ∀ m ∈ absent, m ∉ (readText holds (readFile holds directory depth)
        (numbered k.file n c.inHeader) macros).2 := by
      intro m hm hmem
      have hmem' := (hsame m (List.mem_append_right _ hm)).1 hmem
      exact h.absent_cons hc habsent m hm hmem'
    obtain ⟨hrest, hreached'⟩ := ih (fun d hd => hsub (List.mem_cons_of_mem _ hd)) hnodup
      ((hsame k.guard mem_kept_guard).2 (List.mem_cons_of_mem _ hguard)) hnames' habsent'
      (n + c.inHeader.length)
    rw [List.flatMap_cons, readText_numbered_append (h.nested_inHeader hc)]
    refine ⟨⟨?_, ?_⟩, ?_⟩
    · intro m hm
      have hboth := hrest.same m hm
      rw [List.mem_append, hsame m hm, List.mem_cons] at hboth
      rw [hboth, List.map_cons, List.cons_append, List.mem_cons, List.mem_append]
      grind
    · intro place hplace
      rcases List.mem_append.1 hplace with hplace | hplace
      · exact hfirst.hides place hplace
      · exact hrest.hides place hplace
    · intro xs d ys hsplit hd i hi
      rcases List.cons_eq_append_iff.1 hsplit with ⟨rfl, hsplit⟩ | ⟨xs, rfl, rfl⟩
      · obtain ⟨rfl, rfl⟩ := List.cons.inj hsplit
        exact List.mem_append_left _ (hreached hd i hi)
      · apply List.mem_append_right _
        have hplace := hreached' xs d ys rfl hd i hi
        rwa [List.flatMap_cons, List.length_append, ← Nat.add_assoc]

/-- A file of the cluster whose guard is not defined is read, and defines it. -/
theorem enter_wrap (h : k.Legible absent files directory)
    (holds : List String → String → Bool) (load : String → List String → List Place × List String)
    {guard : String} (hguard : Directive.isWord guard)
    (hkept : guard ∈ k.guards ++ absent ++ k.satelliteGuards) (hmem : guard ∉ macros)
    {lines : List String} (hlines : Nested lines) {file : String}
    (hplaces : ∀ n, (n < k.license.length + 2 ∨ k.license.length + 2 + lines.length ≤ n) →
      ¬k.Hidden ⟨file, n⟩) :
    ∃ macros', SameOn (k.guards ++ absent ++ k.satelliteGuards) macros macros' ∧
      let x := readText holds load (numbered file 0 (k.wrap guard lines)) macros
      let y := readText holds load (numbered file (k.license.length + 2) lines) (guard :: macros')
      x.2 = y.2 ∧ y.1 ⊆ x.1 ∧
        ((∀ place ∈ y.1, ¬k.Hidden place) → ∀ place ∈ x.1, ¬k.Hidden place) := by
  have hlicense : Keeps (k.guards ++ absent ++ k.satelliteGuards) k.Hidden macros
      (readText holds load (numbered file 0 k.license) macros) :=
    h.license.keeps (calm_nil _ _ _) fun i hi => hplaces _ (.inl (by omega))
  have hmem' : guard ∉ (readText holds load (numbered file 0 k.license) macros).2 :=
    fun hin => hmem ((hlicense.same guard hkept).1 hin)
  refine ⟨_, hlicense.same, ?_⟩
  rw [readText_wrap h.license.nested guard hlines,
    readText_fence_of_not_mem hguard (nested_define guard hlines) hmem', numbered,
    readText_define hguard]
  refine ⟨rfl, ?_, ?_⟩
  · intro place hplace
    simp only [List.mem_append, List.mem_cons]
    exact .inr (.inl (.inl (.inr (.inr hplace))))
  · intro hinner place hplace
    simp only [List.cons_append, List.mem_cons, List.mem_append, List.append_assoc,
      List.not_mem_nil, or_false, false_or] at hplace
    rcases hplace with hplace | rfl | rfl | hplace | rfl | rfl
    · exact hlicense.hides place hplace
    · exact hplaces _ (.inl (by omega))
    · exact hplaces _ (.inl (by omega))
    · exact hinner place hplace
    · exact hplaces _ (.inr (by rw [List.length_cons]; omega))
    · exact hplaces _ (.inr (by omega))

/-- What the guard of the header is around. -/
theorem readText_lines (h : k.Legible absent files directory)
    (holds : List String → String → Bool) (depth : Nat) (hguard : k.guard ∈ macros)
    (hnames : ∀ c ∈ k.chapters, c.name ∉ macros) (habsent : ∀ m ∈ absent, m ∉ macros) (n : Nat) :
    let x := readText holds (readFile holds directory depth)
      (numbered k.file n (k.front ++ (k.chapters.flatMap (·.inHeader) ++ k.back))) macros
    Keeps (k.guards ++ absent) k.Hidden (k.chapters.map (·.name) ++ macros) x ∧
      ∀ xs c ys, k.chapters = xs ++ c :: ys → c.satellite = none → ∀ i < c.body.length,
        ⟨k.file, n + k.front.length + (xs.flatMap (·.inHeader)).length + 2 + c.doc.length + i⟩
          ∈ x.1 := by
  have hfront : Keeps (k.guards ++ absent) k.Hidden macros (readText holds
      (readFile holds directory depth) (numbered k.file n k.front) macros) :=
    h.front.keeps (h.calm_files hguard) fun i _ => h.not_hidden_header _
  have hsame := hfront.same
  have hnested := nested_flatMap fun c (hc : c ∈ k.chapters) => h.nested_inHeader hc
  rw [readText_numbered_append h.front.nested]
  obtain ⟨hchapters, hreached⟩ := h.readText_chapters holds depth k.chapters (List.Subset.refl _)
    (List.nodup_cons.1 h.nodup_guards).2 ((hsame k.guard mem_kept_guard).2 hguard)
    (fun c hc hmem => hnames c hc ((hsame _ (mem_kept_name hc)).1 hmem))
    (fun m hm hmem => habsent m hm ((hsame m (List.mem_append_right _ hm)).1 hmem))
    (n + k.front.length)
  rw [readText_numbered_append hnested]
  refine ⟨hfront.append_left (hchapters.append (h.back.keeps (calm_nil _ _ _) fun i _ =>
    h.not_hidden_header _)), fun xs c ys hsplit hc i hi => ?_⟩
  exact List.mem_append_right _ (List.mem_append_left _ (hreached xs c ys hsplit hc i hi))

/-- Reading a header from the outside reaches the chapters that stand in it. -/
theorem readFile_header (h : k.Legible absent files directory)
    (holds : List String → String → Bool) (depth : Nat)
    (hfresh : ∀ m ∈ k.guards ++ absent, m ∉ macros) :
    let x := readFile holds directory (depth + 1) k.file macros
    Keeps (k.guards ++ absent) k.Hidden (k.guards ++ macros) x ∧
      ∀ xs c ys, k.chapters = xs ++ c :: ys → c.satellite = none → ∀ i < c.body.length,
        ⟨k.file, k.position xs c + i⟩ ∈ x.1 := by
  obtain ⟨text, htext, hpieces⟩ := h.header
  simp only [readFile, htext, hpieces]
  have hguard : k.guard ∈ k.guards ++ absent := mem_kept_guard
  obtain ⟨macros', hsame, hmacros, hsub, hhides⟩ := h.enter_wrap holds
    (readFile holds directory depth) h.word_guard (List.mem_append_left _ hguard)
    (hfresh _ hguard) h.nested_lines (fun n _ => h.not_hidden_header n)
  have hfresh' {m : String} (hm : m ∈ k.guards ++ absent) (hne : m ≠ k.guard) :
      m ∉ k.guard :: macros' := by
    intro hmem
    have hmem' := (List.mem_cons.1 hmem).resolve_left hne
    exact hfresh m hm ((hsame m (List.mem_append_left _ hm)).1 hmem')
  obtain ⟨hkeeps, hreached⟩ := h.readText_lines holds depth List.mem_cons_self
    (fun c hc => hfresh' (mem_kept_name hc) fun heq =>
      (List.nodup_cons.1 h.nodup_guards).1 (List.mem_map.2 ⟨c, hc, heq⟩))
    (fun m hm => hfresh' (List.mem_append_right _ hm) fun heq =>
      h.disjoint m hm (heq ▸ List.mem_cons_self))
    (k.license.length + 2)
  refine ⟨⟨?_, hhides hkeeps.hides⟩, ?_⟩
  · intro m hm
    rw [lines, hmacros, hkeeps.same m hm, guards]
    simp only [List.mem_append, List.mem_cons, hsame m (List.mem_append_left _ hm)]
    grind
  · intro xs c ys hsplit hc i hi
    exact hsub (hreached xs c ys hsplit hc i hi)

/-- The header is read before the chapter of a satellite. -/
theorem readText_before (h : k.Legible absent files directory)
    (holds : List String → String → Bool) (depth : Nat) (hc : c ∈ k.chapters)
    (he : c.satellite = some e) (hfresh : ∀ m ∈ k.guards ++ absent, m ∉ macros) :
    let x := readText holds (readFile holds directory (depth + 1))
      (numbered e.file (k.license.length + 2) (k.before e)) macros
    Keeps (k.guards ++ absent) k.Hidden (k.guards ++ macros) x ∧
      ∀ xs c ys, k.chapters = xs ++ c :: ys → c.satellite = none → ∀ i < c.body.length,
        ⟨k.file, k.position xs c + i⟩ ∈ x.1 := by
  obtain ⟨-, -, -, hfront, -⟩ := h.satellite c hc e he
  have hlength : (k.before e).length = e.front.length + (1 + linkageLines.length) := by
    rw [before, List.length_append, List.length_cons, Nat.add_comm 1]
  have hplaces {n : Nat} (hn : n ≤ k.start e) := h.not_hidden_satellite hc he (.inl hn)
  have hfrontkeeps : Keeps (k.guards ++ absent) k.Hidden macros
      (readText holds (readFile holds directory (depth + 1))
        (numbered e.file (k.license.length + 2) e.front) macros) :=
    hfront.keeps (calm_nil _ _ _) fun i hi => hplaces (by unfold start; omega)
  have hload := nested_include k.file
  have hbefore : k.before e =
      e.front ++ (["#include \"" ++ k.file ++ "\""] ++ linkageLines) := rfl
  rw [hbefore, readText_numbered_append hfront.nested, readText_numbered_append hload]
  simp only [numbered, readText_include h.unquoted]
  obtain ⟨hheader, hreached⟩ := h.readFile_header holds depth fun m hm hmem =>
    hfresh m hm ((hfrontkeeps.same m hm).1 hmem)
  have hincluded := (Keeps.single (hplaces (n := k.license.length + 2 + e.front.length)
    (by unfold start; omega))).append_left hheader
  refine ⟨hfrontkeeps.append_left (hincluded.append
    ((tame_linkageLines _ []).keeps (calm_nil _ _ _) fun i hi => hplaces ?_)), ?_⟩
  · have hone : (["#include \"" ++ k.file ++ "\""] : List String).length = 1 := rfl
    unfold start
    omega
  · intro xs c' ys hsplit hc' i hi
    refine List.mem_append_right _ (List.mem_append_left _ (List.mem_cons_of_mem _ ?_))
    exact hreached xs c' ys hsplit hc' i hi

/-- Reading starts at a satellite: the header that it includes is read first, and its chapter is
left out afterwards. -/
theorem readFile_satellite (h : k.Legible absent files directory)
    (holds : List String → String → Bool) (depth : Nat) (hc : c ∈ k.chapters)
    (he : c.satellite = some e) (hfresh : ∀ m ∈ k.guards ++ absent, m ∉ macros)
    (hguard : e.guard ∉ macros) :
    let x := readFile holds directory (depth + 2) e.file macros
    (∀ place ∈ x.1, ¬k.Hidden place) ∧
      ∀ xs c ys, k.chapters = xs ++ c :: ys → c.satellite = none → ∀ i < c.body.length,
        ⟨k.file, k.position xs c + i⟩ ∈ x.1 := by
  obtain ⟨⟨text, htext, hpieces⟩, hword, hnew, -⟩ := h.satellite c hc e he
  have hkept : e.guard ∈ k.guards ++ absent ++ k.satelliteGuards :=
    List.mem_append_right _ (List.mem_filterMap.2 ⟨c, hc, by rw [he, Option.map_some]⟩)
  have hlength := c.length_around c.body
  obtain ⟨macros', hsame, -, hsub, hhides⟩ := h.enter_wrap holds
    (readFile holds directory (depth + 1)) hword hkept hguard (h.nested_satellite hc he)
    fun n hn => h.not_hidden_satellite hc he (by
      simp only [start, List.length_append] at hn hlength ⊢
      omega)
  have hfresh' : ∀ m ∈ k.guards ++ absent, m ∉ e.guard :: macros' := by
    intro m hm hmem
    rcases List.mem_cons.1 hmem with rfl | hmem
    · exact hnew hm
    · exact hfresh m hm ((hsame m (List.mem_append_left _ hm)).1 hmem)
  obtain ⟨hbefore, hreached⟩ := h.readText_before holds depth hc he hfresh'
  have hname := (hbefore.same c.name (mem_kept_name hc)).2
    (List.mem_append_left _ (List.mem_cons_of_mem _ (List.mem_map_of_mem hc)))
  have hchapter : Keeps (k.guards ++ absent) k.Hidden _ (readText holds
      (readFile holds directory (depth + 1))
      (numbered e.file (k.start e) (c.around c.body ++ k.back)) _) := h.keeps_chapter hc he hname
  rw [readText_numbered_append (h.tame_before hc he).nested] at hsub hhides
  rw [readFile_of_some htext, hpieces]
  refine ⟨hhides (hbefore.append hchapter).hides, ?_⟩
  intro xs c ys hsplit hc i hi
  exact hsub (List.mem_append_left _ (hreached xs c ys hsplit hc i hi))

end Legible

/-! ### Places -/

/-- A line of a text that stands between two others. -/
theorem getElem?_middle {lines before text after : List String}
    (h : lines = before ++ (text ++ after)) {i : Nat} (hi : i < text.length) :
    lines[before.length + i]? = text[i]? := by
  rw [h, List.getElem?_append_right (Nat.le_add_right _ _), Nat.add_sub_cancel_left,
    List.getElem?_append_left hi]

variable {file : String} {xs ys : List Chapter} {i : Nat}

/-- The files of a cluster. -/
def members (k : Cluster) : List String :=
  k.file :: k.chapters.filterMap (·.satellite.map (·.file))

/-- The place of a line of a chapter that comes after others. -/
def place (k : Cluster) (xs : List Chapter) (c : Chapter) (i : Nat) : Place :=
  match c.satellite with
  | none => ⟨k.file, k.position xs c + i⟩
  | some e => ⟨e.file, k.start e + 2 + c.doc.length + i⟩

namespace Legible

/-- The line of a chapter stands at its place. -/
theorem getElem?_place (h : k.Legible absent files directory) (hsplit : k.chapters = xs ++ c :: ys)
    (hi : i < c.body.length) :
    ∃ text, directory (k.place xs c i).file = some text ∧
      (Text.pieces '\n' text)[(k.place xs c i).line]? = c.body[i]? := by
  have hc : c ∈ k.chapters := by simp [hsplit]
  unfold place
  cases he : c.satellite with
  | none =>
    obtain ⟨text, htext, hpieces⟩ := h.header
    have hlines : k.lines = (k.license ++ ["#ifndef " ++ k.guard, "#define " ++ k.guard] ++ k.front
        ++ xs.flatMap (·.inHeader) ++ ["#ifndef " ++ c.name, "#define " ++ c.name ++ " 1"]
        ++ c.doc) ++ (c.body ++ (["#endif /* " ++ c.name ++ " */", ""]
        ++ ys.flatMap (·.inHeader) ++ k.back ++ ["#endif /* " ++ k.guard ++ " */", ""])) := by
      simp [lines, wrap, fence, hsplit, Chapter.inHeader, he, Chapter.around]
    refine ⟨text, htext, ?_⟩
    rw [hpieces, ← getElem?_middle hlines hi]
    refine congrArg (k.lines[·]?) ?_
    simp only [position, List.length_append, List.length_cons, List.length_nil]
  | some e =>
    obtain ⟨⟨text, htext, hpieces⟩, -⟩ := h.satellite c hc e he
    have hlines : k.satelliteLines c e = (k.license
        ++ ["#ifndef " ++ e.guard, "#define " ++ e.guard] ++ k.before e
        ++ ["#ifndef " ++ c.name, "#define " ++ c.name ++ " 1"] ++ c.doc)
        ++ (c.body ++ (["#endif /* " ++ c.name ++ " */", ""] ++ k.back
        ++ ["#endif /* " ++ e.guard ++ " */", ""])) := by
      simp [satelliteLines, wrap, fence, Chapter.around]
    refine ⟨text, htext, ?_⟩
    rw [hpieces, ← getElem?_middle hlines hi]
    refine congrArg ((k.satelliteLines c e)[·]?) ?_
    simp only [start, List.length_append, List.length_cons, List.length_nil]

/-- Wherever reading starts in a cluster, it reaches the lines of a chapter exactly if that stands
in the header. -/
theorem reached_iff (h : k.Legible absent files directory) (holds : List String → String → Bool)
    (depth : Nat) (hfresh : ∀ m ∈ k.guards ++ absent ++ k.satelliteGuards, m ∉ macros)
    (hfile : file ∈ k.members) (hsplit : k.chapters = xs ++ c :: ys) (hi : i < c.body.length) :
    k.place xs c i ∈ (readFile holds directory (depth + 2) file macros).1 ↔ c.satellite = none := by
  have hkept : ∀ m ∈ k.guards ++ absent, m ∉ macros :=
    fun m hm => hfresh m (List.mem_append_left _ hm)
  have hc : c ∈ k.chapters := by simp [hsplit]
  obtain ⟨hhides, hreached⟩ : (∀ p ∈ (readFile holds directory (depth + 2) file macros).1,
      ¬k.Hidden p) ∧ ∀ xs c ys, k.chapters = xs ++ c :: ys → c.satellite = none →
        ∀ i < c.body.length,
          ⟨k.file, k.position xs c + i⟩ ∈ (readFile holds directory (depth + 2) file macros).1 := by
    rcases List.mem_cons.1 hfile with rfl | hfile
    · obtain ⟨hkeeps, hreached⟩ := h.readFile_header holds (depth + 1) hkept
      exact ⟨hkeeps.hides, hreached⟩
    · obtain ⟨d, hd, hdfile⟩ := List.mem_filterMap.1 hfile
      obtain ⟨e, he, rfl⟩ := Option.map_eq_some_iff.1 hdfile
      have hguard : e.guard ∈ k.satelliteGuards :=
        List.mem_filterMap.2 ⟨d, hd, by rw [he, Option.map_some]⟩
      exact h.readFile_satellite holds depth hd he hkept
        (hfresh e.guard (List.mem_append_right _ hguard))
  cases he : c.satellite with
  | none =>
    have hplace : k.place xs c i = ⟨k.file, k.position xs c + i⟩ := by rw [place, he]
    rw [hplace]
    exact iff_of_true (hreached xs c ys hsplit he i hi) rfl
  | some e =>
    have hplace : k.place xs c i = ⟨e.file, k.start e + 2 + c.doc.length + i⟩ := by rw [place, he]
    have hhidden : k.Hidden (k.place xs c i) := by
      refine ⟨c, hc, e, he, by rw [hplace], ?_, ?_⟩
      · rw [hplace]
        change k.start e < k.start e + 2 + c.doc.length + i
        omega
      · rw [hplace, List.length_append]
        change k.start e + 2 + c.doc.length + i ≤ k.start e + 1 + (c.doc.length + c.body.length)
        omega
    exact iff_of_false (fun hmem => hhides _ hmem hhidden) nofun

end Legible

end Cluster

end ApiHeaders
