import ApiHeaders.Proofs.Fence
import Mathlib.Data.List.Pairwise

/-!
# Headers with satellites

A header and its satellites include one another, and every chapter of theirs stands between the
directives of a guard: in the header itself, or in a satellite, with nothing but a reference to it
in the header. Both places have the same guard.

## Main definitions

* `Chapter` is a set as it stands in a cluster, `Cluster` is a header with its satellites.
* `Cluster.Legible` lists what reading a cluster relies on.
* `Cluster.Hidden` are the places of a chapter in its satellite.

## Main statements

* `Cluster.Legible.keeps_header` says that including the header once more changes nothing.
* `Cluster.Legible.keeps_satellite` says that a satellite is left out from the header.
-/

namespace ApiHeaders

/-! ### Clusters -/

/-- A file that a chapter is extracted into. -/
structure Satellite where
  file : String
  guard : String
  /-- What stands before the header is included. -/
  front : List String

/-- A set as it stands in a cluster. -/
structure Chapter where
  name : String
  doc : List String
  body : List String
  satellite : Option Satellite

namespace Chapter

variable (c : Chapter)

/-- A chapter with some lines in the place of its body. -/
def around (lines : List String) : List String :=
  fence c.name (("#define " ++ c.name ++ " 1") :: (c.doc ++ lines)) ++ [""]

theorem length_around (lines : List String) :
    (c.around lines).length = (c.doc ++ lines).length + 4 := by
  simp [around, fence]
  omega

/-- A chapter as it stands in the header. -/
def inHeader : List String :=
  match c.satellite with
  | none => c.around c.body
  | some e => c.around ["#include \"" ++ e.file ++ "\""]

end Chapter

/-- A header with its satellites. -/
structure Cluster where
  file : String
  guard : String
  license : List String
  front : List String
  chapters : List Chapter
  back : List String

/-- What a satellite has between the header that it includes and its chapter. -/
def linkageLines : List String :=
  ["", "#ifdef __cplusplus", "extern \"C\" \x7b", "#endif", ""]

namespace Cluster

variable (k : Cluster)

/-- A file of the cluster. -/
def wrap (guard : String) (lines : List String) : List String :=
  k.license ++ (fence guard (("#define " ++ guard) :: lines) ++ [""])

/-- The header. -/
def lines : List String := k.wrap k.guard (k.front ++ (k.chapters.flatMap (·.inHeader) ++ k.back))

/-- What a satellite has before its chapter, without the definition of its guard. -/
def before (e : Satellite) : List String :=
  e.front ++ (("#include \"" ++ k.file ++ "\"") :: linkageLines)

/-- The satellite of a chapter. -/
def satelliteLines (c : Chapter) (e : Satellite) : List String :=
  k.wrap e.guard (k.before e ++ (c.around c.body ++ k.back))

/-- The line of a satellite at which its chapter starts. -/
def start (e : Satellite) : Nat := k.license.length + 2 + (k.before e).length

/-- Whether a place is a line of an extracted chapter in its satellite. -/
def Hidden (place : Place) : Prop :=
  ∃ c ∈ k.chapters, ∃ e, c.satellite = some e ∧ place.file = e.file ∧
    k.start e < place.line ∧ place.line ≤ k.start e + 1 + (c.doc ++ c.body).length

/-- The macros that only the guards of the header and of its chapters define. -/
def guards : List String := k.guard :: k.chapters.map (·.name)

/-- The guards of the satellites. -/
def satelliteGuards : List String := k.chapters.filterMap (·.satellite.map (·.guard))

/-- What reading a cluster relies on. The macros in `absent` are not defined anywhere, and `files`
are what its texts include. -/
structure Legible (absent files : List String) (directory : String → Option String) : Prop where
  word_guard : Directive.isWord k.guard
  words : ∀ c ∈ k.chapters, Directive.isWord c.name
  nodup_guards : k.guards.Nodup
  disjoint : ∀ m ∈ absent, m ∉ k.guards
  license : Tame (k.guards ++ absent ++ k.satelliteGuards) [] k.license
  front : Tame (k.guards ++ absent) files k.front
  back : Tame (k.guards ++ absent) [] k.back
  doc : ∀ c ∈ k.chapters, Tame (k.guards ++ absent) files c.doc
  nested_body : ∀ c ∈ k.chapters, Nested c.body
  body : ∀ c ∈ k.chapters, c.satellite = none →
    ∀ line ∈ c.body, isClear absent (k.guards ++ absent) files line
  header : ∃ text, directory k.file = some text ∧ Text.pieces '\n' text = k.lines
  unquoted : '"' ∉ k.file.toList
  satellite : ∀ c ∈ k.chapters, ∀ e, c.satellite = some e →
    (∃ text, directory e.file = some text ∧ Text.pieces '\n' text = k.satelliteLines c e) ∧
      Directive.isWord e.guard ∧ e.guard ∉ k.guards ++ absent ∧
      Tame (k.guards ++ absent) [] e.front ∧ '"' ∉ e.file.toList ∧ e.file ≠ k.file
  nodup_files : (k.chapters.filterMap (·.satellite.map (·.file))).Nodup
  others : ∀ file ∈ files, file ≠ k.file →
    (∀ c ∈ k.chapters, ∀ e, c.satellite = some e → file ≠ e.file) ∧
      ∀ text, directory file = some text →
        ∀ line ∈ Text.pieces '\n' text, isHarmless (k.guards ++ absent) files line

end Cluster

theorem tame_linkageLines (kept files : List String) : Tame kept files linkageLines := by
  refine ⟨rfl, ?_⟩
  intro line hline
  simp only [linkageLines, List.mem_cons, List.not_mem_nil, or_false] at hline
  rcases hline with rfl | rfl | rfl | rfl | rfl <;> rfl

namespace Chapter

theorem nested_around {c : Chapter} (hdoc : Nested c.doc) {lines : List String} (h : Nested lines) :
    Nested (c.around lines) := by
  have hblank : Nested [""] := rfl
  exact (nested_fence c.name (nested_define_one c.name (hdoc.append h))).append hblank

end Chapter

namespace Cluster

variable {k : Cluster} {absent files : List String} {directory : String → Option String}
  {holds : List String → String → Bool} {c : Chapter} {e : Satellite} {macros : List String}
  {depth : Nat}

namespace Legible

theorem nested_inHeader (h : k.Legible absent files directory) (hc : c ∈ k.chapters) :
    Nested c.inHeader := by
  have hdoc := (h.doc c hc).nested
  unfold Chapter.inHeader
  split
  · exact Chapter.nested_around hdoc (h.nested_body c hc)
  · next e _ => exact Chapter.nested_around hdoc (nested_include e.file)

theorem nested_lines (h : k.Legible absent files directory) :
    Nested (k.front ++ (k.chapters.flatMap (·.inHeader) ++ k.back)) :=
  h.front.nested.append
    ((nested_flatMap fun _ hc => h.nested_inHeader hc).append h.back.nested)

theorem tame_before (h : k.Legible absent files directory) (hc : c ∈ k.chapters)
    (he : c.satellite = some e) : Tame (k.guards ++ absent) [k.file] (k.before e) := by
  obtain ⟨-, -, -, hfront, -, -⟩ := h.satellite c hc e he
  have hload : Tame (k.guards ++ absent) [k.file] ["#include \"" ++ k.file ++ "\""] := by
    refine ⟨nested_include k.file, ?_⟩
    intro line hline
    rw [List.mem_singleton.1 hline, isHarmless, Directive.of?_include h.unquoted]
    simp [Directive.isHarmless]
  have hfront' := hfront.mono (List.Subset.refl _) (List.nil_subset [k.file])
  exact hfront'.append (hload.append (tame_linkageLines _ _))

theorem nested_satellite (h : k.Legible absent files directory) (hc : c ∈ k.chapters)
    (he : c.satellite = some e) :
    Nested (k.before e ++ (c.around c.body ++ k.back)) :=
  (h.tame_before hc he).nested.append
    ((Chapter.nested_around (h.doc c hc).nested (h.nested_body c hc)).append
      h.back.nested)

theorem mem_kept_guard : k.guard ∈ k.guards ++ absent :=
  List.mem_append_left _ List.mem_cons_self

theorem mem_kept_name (hc : c ∈ k.chapters) : c.name ∈ k.guards ++ absent :=
  List.mem_append_left _ (List.mem_cons_of_mem _ (List.mem_map_of_mem hc))

theorem not_hidden_header (h : k.Legible absent files directory) (n : Nat) :
    ¬k.Hidden ⟨k.file, n⟩ := by
  rintro ⟨c, hc, e, he, hfile, -⟩
  obtain ⟨-, -, -, -, -, hne⟩ := h.satellite c hc e he
  exact hne hfile.symm

theorem eq_of_file_eq (h : k.Legible absent files directory) {c' : Chapter} {e' : Satellite}
    (hc : c ∈ k.chapters) (he : c.satellite = some e) (hc' : c' ∈ k.chapters)
    (he' : c'.satellite = some e') (hfile : e.file = e'.file) : c = c' := by
  by_contra hne
  let Apart (a b : Chapter) : Prop :=
    ∀ x, a.satellite.map (·.file) = some x → ∀ y, b.satellite.map (·.file) = some y → x ≠ y
  have hsymm : Std.Symm Apart := ⟨fun a b hab x hx y hy heq => hab y hy x hx heq.symm⟩
  have hpair : k.chapters.Pairwise Apart := List.pairwise_filterMap.1 h.nodup_files
  have hx : c.satellite.map (·.file) = some e.file := by rw [he, Option.map_some]
  have hy : c'.satellite.map (·.file) = some e'.file := by rw [he', Option.map_some]
  exact hpair.forall hc hc' hne e.file hx e'.file hy hfile

/-- In a satellite, nothing outside of its chapter is hidden. -/
theorem not_hidden_satellite (h : k.Legible absent files directory) (hc : c ∈ k.chapters)
    (he : c.satellite = some e) {n : Nat}
    (hn : n ≤ k.start e ∨ k.start e + 1 + (c.doc ++ c.body).length < n) :
    ¬k.Hidden ⟨e.file, n⟩ := by
  rintro ⟨c', hc', e', he', hfile, hlo, hhi⟩
  have heq := h.eq_of_file_eq hc he hc' he' hfile
  subst heq
  rw [he] at he'
  cases he'
  have hlo' : k.start e < n := hlo
  have hhi' : n ≤ k.start e + 1 + (c.doc ++ c.body).length := hhi
  omega

end Legible

theorem readText_wrap {load : String → List String → List Place × List String}
    (hlicense : Nested k.license) (guard : String)
    {lines : List String} (hlines : Nested lines) (file : String) (macros : List String) :
    let x := readText holds load (numbered file 0 k.license) macros
    let y := readText holds load
      (numbered file k.license.length (fence guard (("#define " ++ guard) :: lines))) x.2
    readText holds load (numbered file 0 (k.wrap guard lines)) macros =
      (x.1 ++ (y.1 ++ [⟨file, k.license.length + (lines.length + 3)⟩]), y.2) := by
  have hfence := nested_fence guard (nested_define guard hlines)
  rw [wrap, readText_numbered_append hlicense, readText_numbered_append hfence, Nat.zero_add,
    length_fence]
  rfl

namespace Legible

theorem not_hidden_around (h : k.Legible absent files directory) (hc : c ∈ k.chapters)
    (he : c.satellite = some e) (n : Nat)
    (hn : n < k.license.length ∨
      k.license.length + ((k.before e ++ (c.around c.body ++ k.back)).length + 2) < n) :
    ¬k.Hidden ⟨e.file, n⟩ := by
  apply h.not_hidden_satellite hc he
  have hlength := c.length_around c.body
  simp only [start, List.length_append] at hn hlength ⊢
  omega

/-- Reading a file of the cluster keeps the macros if reading what its guard is around does. -/
theorem keeps_wrap (h : k.Legible absent files directory)
    {load : String → List String → List Place × List String} {guard file : String}
    {lines : List String} (hlines : Nested lines)
    (hplaces : ∀ n, (n < k.license.length ∨ k.license.length + (lines.length + 2) < n) →
      ¬k.Hidden ⟨file, n⟩)
    (hfence : ∀ macros', SameOn (k.guards ++ absent ++ k.satelliteGuards) macros macros' →
      Keeps (k.guards ++ absent) k.Hidden macros' (readText holds load
        (numbered file k.license.length (fence guard (("#define " ++ guard) :: lines))) macros')) :
    Keeps (k.guards ++ absent) k.Hidden macros
      (readText holds load (numbered file 0 (k.wrap guard lines)) macros) := by
  have hlicense : Keeps (k.guards ++ absent ++ k.satelliteGuards) k.Hidden macros
      (readText holds load (numbered file 0 k.license) macros) :=
    h.license.keeps (calm_nil _ _ _) fun i hi => by
      rw [Nat.zero_add]
      exact hplaces i (.inl hi)
  have hsub : k.guards ++ absent ⊆ k.guards ++ absent ++ k.satelliteGuards :=
    List.subset_append_left ..
  rw [readText_wrap h.license.nested guard hlines]
  exact (hlicense.mono hsub).append
    ((hfence _ hlicense.same).append (Keeps.single (hplaces _ (.inr (by omega)))))

/-- Including the header once more changes nothing. -/
theorem keeps_header (h : k.Legible absent files directory) (hguard : k.guard ∈ macros) :
    Keeps (k.guards ++ absent) k.Hidden macros (readFile holds directory depth k.file macros) := by
  cases depth with
  | zero => exact .nil ..
  | succ depth =>
    obtain ⟨text, htext, hpieces⟩ := h.header
    simp only [readFile, htext, hpieces]
    apply h.keeps_wrap h.nested_lines (fun n _ => h.not_hidden_header n)
    intro macros' hsame
    have hmem : k.guard ∈ macros' :=
      (hsame k.guard (List.mem_append_left _ mem_kept_guard)).2 hguard
    rw [readText_fence_of_mem h.word_guard (nested_define k.guard h.nested_lines) hmem]
    exact .single (h.not_hidden_header _)

/-- Once the header is being read, what its texts include is harmless. -/
theorem calm_files (h : k.Legible absent files directory) (hguard : k.guard ∈ macros) :
    Calm (k.guards ++ absent) files k.Hidden (readFile holds directory depth) macros := by
  induction depth generalizing macros with
  | zero => exact fun file _ macros' _ => .nil ..
  | succ depth ih =>
    intro file hfile macros' hsame
    have hmem : k.guard ∈ macros' := (hsame k.guard mem_kept_guard).2 hguard
    by_cases hheader : file = k.file
    · rw [hheader]
      exact h.keeps_header hmem
    · obtain ⟨hother, hharmless⟩ := h.others file hfile hheader
      cases htext : directory file with
      | none =>
        simp only [readFile, htext]
        exact .nil ..
      | some text =>
        simp only [readFile, htext]
        refine keeps_readText (ih hmem) ?_ ?_
        · intro x hx
          rintro ⟨c, hc, e, he, hplace, -⟩
          obtain ⟨hxfile, -⟩ := place_of_mem_numbered hx
          exact hother c hc e he (hxfile.symm.trans hplace)
        · intro x hx
          apply hharmless text htext x.2
          rw [← map_snd_numbered file 0 (Text.pieces '\n' text)]
          exact List.mem_map_of_mem hx

theorem calm_header (h : k.Legible absent files directory) (hguard : k.guard ∈ macros) :
    Calm (k.guards ++ absent) [k.file] k.Hidden (readFile holds directory depth) macros := by
  intro file hfile macros' hsame
  rw [List.mem_singleton.1 hfile]
  exact h.keeps_header ((hsame k.guard mem_kept_guard).2 hguard)

/-- A satellite is left out from its chapter on if the chapter's guard is defined. -/
theorem keeps_chapter (h : k.Legible absent files directory)
    {load : String → List String → List Place × List String} (hc : c ∈ k.chapters)
    (he : c.satellite = some e) (hname : c.name ∈ macros) :
    Keeps (k.guards ++ absent) k.Hidden macros (readText holds load
      (numbered e.file (k.start e) (c.around c.body ++ k.back)) macros) := by
  have hword := h.words c hc
  have hnested := (h.doc c hc).nested.append (h.nested_body c hc)
  have hinner : Nested (("#define " ++ c.name ++ " 1") :: (c.doc ++ c.body)) :=
    nested_define_one c.name hnested
  have hlength := c.length_around c.body
  have haround := Chapter.nested_around (h.doc c hc).nested (h.nested_body c hc)
  refine keeps_numbered_append haround
    (keeps_numbered_append (nested_fence c.name hinner) ?_ ?_) ?_
  · rw [readText_fence_of_mem hword hinner hname]
    exact .single (h.not_hidden_satellite hc he (.inl (Nat.le_refl _)))
  · intro macros' _
    refine (tame_blank _ _).keeps (calm_nil _ _ _) fun i _ => h.not_hidden_satellite hc he (.inr ?_)
    rw [length_fence, List.length_cons]
    omega
  · intro macros' _
    refine h.back.keeps (calm_nil _ _ _) fun i _ => h.not_hidden_satellite hc he (.inr ?_)
    omega

/-- Reading a satellite from the header's side of its chapter reaches nothing of the chapter. -/
theorem keeps_satellite (h : k.Legible absent files directory) (hc : c ∈ k.chapters)
    (he : c.satellite = some e) (hguard : k.guard ∈ macros) (hname : c.name ∈ macros) :
    Keeps (k.guards ++ absent) k.Hidden macros (readFile holds directory depth e.file macros) := by
  cases depth with
  | zero => exact .nil ..
  | succ depth =>
    obtain ⟨⟨text, htext, hpieces⟩, hword, hnew, -⟩ := h.satellite c hc e he
    have hbefore := h.tame_before hc he
    have hnested := h.nested_satellite hc he
    simp only [readFile, htext, hpieces]
    apply h.keeps_wrap hnested (h.not_hidden_around hc he)
    intro macros' hsame
    have hguard' : k.guard ∈ macros' :=
      (hsame k.guard (List.mem_append_left _ mem_kept_guard)).2 hguard
    have hname' : c.name ∈ macros' :=
      (hsame c.name (List.mem_append_left _ (mem_kept_name hc))).2 hname
    have hdefine : Tame (k.guards ++ absent) [k.file] (("#define " ++ e.guard) :: k.before e) := by
      refine ⟨nested_define e.guard hbefore.nested, ?_⟩
      intro line hline
      rcases List.mem_cons.1 hline with rfl | hline
      · rw [isHarmless, Directive.of?_define hword]
        simpa [Directive.isHarmless] using hnew
      · exact hbefore.harmless line hline
    refine keeps_fence hword (nested_define e.guard hnested)
      (h.not_hidden_satellite hc he (.inl ?_)) (h.not_hidden_satellite hc he (.inr ?_)) fun _ => ?_
    · unfold start
      omega
    · have hlength := c.length_around c.body
      simp only [start, List.length_cons, List.length_append] at hlength ⊢
      omega
    · have hstart : k.license.length + 1 + (("#define " ++ e.guard) :: k.before e).length =
          k.start e := by
        rw [start, List.length_cons]
        omega
      rw [← List.cons_append]
      refine keeps_numbered_append hdefine.nested
        (hdefine.keeps (h.calm_header hguard') fun i hi => h.not_hidden_satellite hc he (.inl ?_))
        fun macros'' hsame' => ?_
      · omega
      · rw [hstart]
        exact h.keeps_chapter hc he ((hsame' c.name (mem_kept_name hc)).2 hname')

end Legible

end Cluster

end ApiHeaders
