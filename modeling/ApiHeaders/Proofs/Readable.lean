import ApiHeaders.Proofs.Body
import ApiHeaders.Proofs.HeaderText

/-!
# Readable headers

The files of a header can be read if its texts and those of the registry leave the guards alone.

## Main definitions

* `directory` are the files of a run next to one another.
* `Readable` lists what the texts of a header have to fulfil.
* `Ledger.HasHeader` says that the files of a header are staged.

## Main statements

* `Readable.legible` says that the files of a header make up a legible cluster.
-/

namespace ApiHeaders

open Text (physicalLines)

/-- The file of a directory by its name. The directory is that of a file of the run. -/
def directory (files : List NamedFile) (path : Path) (name : String) : Option String :=
  (files.find? (·.path.components = path.components.dropLast ++ [.named name])).map (·.text)

/-- The macros by which somebody may leave out the prototypes of some sets. -/
def prototypeMacros (ws : List Writing) : List String :=
  ws.flatMap fun w => w.items.filterMap Item.prototypeMacro?

/-- What reading a header relies on. Guards and sets have names of their own, which are words, and
no other text defines them. The registry has no conditionals of its own, and the other texts close
those that they open. `files` are the names of the files that these texts include; they are not
among the satellites, and those that are generated are harmless themselves. -/
structure Readable (b : Boilerplate) (t : Target) (ws : List Writing) (files : List String)
    (folder : String → Option String) : Prop where
  named : ∃ file, t.path.fileName? = some file
  annexes : ∀ w ∈ ws, ∀ annex, w.set.annexFrom? t = some annex → t.Fits annex
  fileNames : ∀ name ∈ (cluster b t ws).members, '"' ∉ name.toList ∧ '\n' ∉ name.toList
  words : ∀ m ∈ (cluster b t ws).guards ++ (cluster b t ws).satelliteGuards
    ++ prototypeMacros ws, Directive.isWord m
  nodup : ((cluster b t ws).guards ++ (cluster b t ws).satelliteGuards).Nodup
  disjoint : ∀ m ∈ prototypeMacros ws,
    m ∉ (cluster b t ws).guards ++ (cluster b t ws).satelliteGuards
  license : Tame ((cluster b t ws).guards ++ prototypeMacros ws
    ++ (cluster b t ws).satelliteGuards) [] b.licenseLines
  banner : Tame ((cluster b t ws).guards ++ prototypeMacros ws) [] (physicalLines b.banner)
  preamble : Tame ((cluster b t ws).guards ++ prototypeMacros ws) files
    (Text.pieces '\n' t.preamble)
  headers : ∀ w ∈ ws, Tame ((cluster b t ws).guards ++ prototypeMacros ws) [] w.includeLines
  docs : ∀ w ∈ ws, Tame ((cluster b t ws).guards ++ prototypeMacros ws) files (w.chapter b t).doc
  texts : ∀ w ∈ ws, ∀ item ∈ w.items, ∀ line ∈ physicalLines item.texts,
    isPlain ((cluster b t ws).guards ++ prototypeMacros ws) files line
  included : ∀ file ∈ files, file ≠ t.path.fileName →
    file ∉ (cluster b t ws).members ∧ ∀ text, folder file = some text →
      ∀ line ∈ Text.pieces '\n' text,
        isHarmless ((cluster b t ws).guards ++ prototypeMacros ws) files line

/-- A file of the directory of a path. -/
theorem directory_files {staged : Staged} (hkeyed : staged.Keyed) {path place : Path}
    {name : String} (hplace : place.components = path.components.dropLast ++ [.named name]) :
    directory staged.files path name = staged.textAt? place.components := by
  rw [directory, ← hplace, Staged.find?_files hkeyed]

theorem Boilerplate.tame_opening {b : Boilerplate} {kept files : List String}
    (h : Tame kept [] (physicalLines b.banner)) : Tame kept files b.opening := by
  have hend : Tame kept [] ["", "/* NOLINTBEGIN */"] := by
    refine ⟨rfl, ?_⟩
    simp only [List.forall_mem_cons]
    exact ⟨rfl, rfl, List.forall_mem_nil _⟩
  have hall := ((tame_blank kept []).append h).append hend
  exact hall.mono (List.Subset.refl _) (List.nil_subset _)

theorem tame_closingLines (kept files : List String) : Tame kept files closingLines := by
  refine ⟨rfl, ?_⟩
  simp only [closingLines, List.forall_mem_cons]
  exact ⟨rfl, rfl, rfl, rfl, rfl, List.forall_mem_nil _⟩

variable {b : Boilerplate} {t : Target} {w : Writing} {ws : List Writing}

theorem tame_back (kept : List String) (b : Boilerplate) (t : Target) (ws : List Writing) :
    Tame kept [] (cluster b t ws).back := by
  have hblank : Tame kept [] (if ws = [] then [""] else []) := by
    split
    · exact tame_blank kept []
    · exact ⟨rfl, List.forall_mem_nil _⟩
  exact hblank.append (tame_closingLines kept [])

/-- What the cluster of a header says about the satellite of a set. -/
theorem Writing.satellite_eq_some {e : Satellite} (h : (w.chapter b t).satellite = some e) :
    ∃ annex, w.set.annexFrom? t = some annex ∧ e.file = w.target.path.fileName ∧
      e.guard = b.guard e.file ∧ e.front = b.opening ++ w.includeLines := by
  obtain ⟨annex, hannex, rfl⟩ := Option.map_eq_some_iff.1 h
  exact ⟨annex, hannex, rfl, rfl, rfl⟩

theorem Writing.satellite_of_annex {annex : String} (h : w.set.annexFrom? t = some annex) :
    ∃ e, (w.chapter b t).satellite = some e ∧ e.file = w.target.path.fileName := by
  obtain ⟨e, he⟩ : ∃ e, (w.chapter b t).satellite = some e := by simp [chapter, h]
  obtain ⟨-, -, hfile, -⟩ := w.satellite_eq_some he
  exact ⟨e, he, hfile⟩

/-- The guards of the satellites belong to their files. -/
theorem satelliteGuards_cluster (b : Boilerplate) (t : Target) (ws : List Writing) :
    (cluster b t ws).satelliteGuards =
      ((cluster b t ws).chapters.filterMap (·.satellite.map (·.file))).map b.guard := by
  rw [Cluster.satelliteGuards, List.map_filterMap]
  apply List.filterMap_congr
  intro c hc
  obtain ⟨w, -, rfl⟩ := List.mem_map.1 hc
  cases he : (w.chapter b t).satellite with
  | none => rfl
  | some e =>
    obtain ⟨-, -, -, hguard, -⟩ := w.satellite_eq_some he
    simp only [Option.map_some, hguard]

theorem mem_members {e : Satellite} {file : String} (hw : w ∈ ws)
    (he : (w.chapter b t).satellite = some e) (hfile : e.file = file) :
    file ∈ (cluster b t ws).members := by
  refine List.mem_cons_of_mem _ (List.mem_filterMap.2 ⟨w.chapter b t, List.mem_map_of_mem hw, ?_⟩)
  rw [he, Option.map_some, hfile]

theorem mem_satelliteGuards {e : Satellite} (hw : w ∈ ws)
    (he : (w.chapter b t).satellite = some e) : e.guard ∈ (cluster b t ws).satelliteGuards := by
  refine List.mem_filterMap.2 ⟨w.chapter b t, List.mem_map_of_mem hw, ?_⟩
  rw [he, Option.map_some]

/-- A header and its satellites are staged. -/
structure Ledger.HasHeader (l : Ledger) (b : Boilerplate) (t : Target) (ws : List Writing) :
    Prop where
  keyed : l.staged.Keyed
  form : t.form = .header
  target : ∀ w ∈ ws, w.target = w.set.writtenInto w.registry t
  text : l.staged.textAt? t.path.components = some (t.file b (ws.flatMap (·.inHeader t)))
  done : ∀ w ∈ ws, w.Done b t l

namespace Readable

variable {files : List String} {folder : String → Option String} {l : Ledger} {annex : String}

theorem sound (h : Readable b t ws files folder) (hw : w ∈ ws) :
    ∀ item ∈ w.items,
      item.Sound ((cluster b t ws).guards ++ prototypeMacros ws) files := by
  intro item hitem
  refine ⟨fun m hm => h.words m (List.mem_append_right _ ?_), h.texts w hw item hitem⟩
  exact List.mem_flatMap.2 ⟨w, hw, List.mem_filterMap.2 ⟨item, hitem, hm⟩⟩

theorem nested_body (h : Readable b t ws files folder) (hw : w ∈ ws)
    (hitems : (w.set.items w.registry w.target).result = .ok w.items) :
    Nested (w.chapter b t).body :=
  ApiSet.nested_items hitems fun item hitem => (h.sound hw item hitem).orderly

theorem isClear_body (h : Readable b t ws files folder) (hw : w ∈ ws) :
    ∀ line ∈ (w.chapter b t).body,
      isClear (prototypeMacros ws) ((cluster b t ws).guards ++ prototypeMacros ws) files line := by
  intro line hline
  obtain ⟨text, htext, hline⟩ := List.mem_flatMap.1 hline
  obtain ⟨item, hitem, htext⟩ := List.mem_flatMap.1 htext
  have habsent : ∀ m ∈ item.prototypeMacro?, m ∈ prototypeMacros ws := fun m hm =>
    List.mem_flatMap.2 ⟨w, hw, List.mem_filterMap.2 ⟨item, hitem, hm⟩⟩
  exact Item.isClear_of_mem (h.sound hw item hitem) habsent line
    (List.mem_flatMap.2 ⟨text, htext, hline⟩)

theorem isWord_guard (h : Readable b t ws files folder) {m : String}
    (hm : m ∈ (cluster b t ws).guards ++ (cluster b t ws).satelliteGuards) : Directive.isWord m :=
  h.words m (List.mem_append_left _ hm)

theorem isWord_name (h : Readable b t ws files folder) (hw : w ∈ ws) :
    Directive.isWord w.set.name := by
  have hmem : w.set.name ∈ (cluster b t ws).guards :=
    List.mem_cons_of_mem _ (List.mem_map.2 ⟨w.chapter b t, List.mem_map_of_mem hw, rfl⟩)
  exact h.isWord_guard (List.mem_append_left _ hmem)

/-- The header is the last step of its path. -/
theorem components_header (h : Readable b t ws files folder) :
    t.path.components = t.path.components.dropLast ++ [.named t.path.fileName] := by
  obtain ⟨file, hfile⟩ := h.named
  have hname : t.path.fileName = file := by
    rw [Path.fileName, hfile]
    rfl
  rw [hname]
  exact Path.components_of_fileName? hfile

/-- A satellite stands next to the header. -/
theorem components_satellite (h : Readable b t ws files folder) (hw : w ∈ ws)
    (hannex : w.set.annexFrom? t = some annex) (hslash : '/' ∉ annex.toList)
    (htarget : w.target = w.set.writtenInto w.registry t) :
    w.target.path.components =
      t.path.components.dropLast ++ [.named w.target.path.fileName] := by
  obtain ⟨file, hfile⟩ := h.named
  have hfits := h.annexes w hw annex hannex
  have hpath : w.target.path = t.annexPath annex := by
    rw [htarget, ApiSet.writtenInto_of_annex hannex]
    rfl
  have hname := Target.fileName?_annexPath hfile hfits hslash
  rw [hpath, Path.fileName, hname]
  exact Target.components_annexPath hfile hfits hslash

/-- No set of the header is extracted twice. -/
theorem annexFrom?_satellite (h : Readable b t ws files folder) (hw : w ∈ ws)
    (hannex : w.set.annexFrom? t = some annex) (hslash : '/' ∉ annex.toList) :
    w.set.annexFrom? (t.satellite annex (w.set.headers w.registry)) = none := by
  obtain ⟨file, hfile⟩ := h.named
  have hfits := h.annexes w hw annex hannex
  have hself := Target.isAnnex_satellite hfile hfits hslash (w.set.headers w.registry)
  have hsome : w.set.annex = some annex := (Option.filter_eq_some_iff.1 hannex).1
  rw [ApiSet.annexFrom?, hsome]
  simp [hself]

theorem break_not_mem (h : Readable b t ws files folder) (hw : w ∈ ws)
    (hl : l.HasHeader b t ws) :
    w.target.form = .header ∧ '\n' ∉ w.set.name.toList ∧ '\n' ∉ w.target.path.fileName.toList := by
  have hinto := hl.target w hw
  have hform : w.target.form = .header := by rw [hinto, ApiSet.form_writtenInto, hl.form]
  refine ⟨hform, Directive.break_not_mem (h.isWord_name hw), ?_⟩
  cases hannex : w.set.annexFrom? t with
  | none =>
    rw [ApiSet.writtenInto_of_none hannex] at hinto
    obtain ⟨-, hfile⟩ := h.fileNames t.path.fileName List.mem_cons_self
    rw [hinto]
    exact hfile
  | some annex =>
    obtain ⟨e, he, heq⟩ := w.satellite_of_annex (b := b) hannex
    obtain ⟨-, hfile⟩ := h.fileNames w.target.path.fileName (mem_members hw he heq)
    exact hfile

theorem header (h : Readable b t ws files folder) (hl : l.HasHeader b t ws) :
    ∃ text, directory l.staged.files t.path t.path.fileName = some text ∧
      Text.pieces '\n' text = (cluster b t ws).lines := by
  have hguard : Directive.isWord (b.guard t.path.fileName) :=
    h.isWord_guard (List.mem_append_left _ List.mem_cons_self)
  refine ⟨_, (directory_files hl.keyed h.components_header).trans hl.text, ?_⟩
  exact lines_cluster hl.form (Directive.break_not_mem hguard) fun w hw => h.break_not_mem hw hl

theorem satellite (h : Readable b t ws files folder) (hl : l.HasHeader b t ws) (hw : w ∈ ws)
    {e : Satellite} (he : (w.chapter b t).satellite = some e) :
    ∃ text, directory l.staged.files t.path e.file = some text ∧
      Text.pieces '\n' text = (cluster b t ws).satelliteLines (w.chapter b t) e := by
  obtain ⟨annex, hannex, hfile, hguard, -⟩ := w.satellite_eq_some he
  obtain ⟨-, htexts⟩ := hl.done w hw
  obtain ⟨hslash, -, -, htext⟩ := htexts annex hannex
  have hplace := h.components_satellite hw hannex hslash (hl.target w hw)
  have hinto : w.target = t.satellite annex (w.set.headers w.registry) := by
    rw [hl.target w hw, ApiSet.writtenInto_of_annex hannex]
  have hword : Directive.isWord (b.guard w.target.path.fileName) := by
    rw [← hfile, ← hguard]
    exact h.isWord_guard (List.mem_append_right _ (mem_satelliteGuards hw he))
  obtain ⟨-, hname, -⟩ := h.break_not_mem hw hl
  obtain ⟨-, hheader⟩ := h.fileNames t.path.fileName List.mem_cons_self
  rw [hfile]
  refine ⟨_, (directory_files hl.keyed hplace).trans htext, ?_⟩
  exact satelliteLines_cluster hl.form hw hannex hinto (Directive.break_not_mem hword) hname hheader
    he

/-- The files of a header that are staged make up a cluster, and it is legible. -/
theorem legible (h : Readable b t ws files (directory l.staged.files t.path))
    (hl : l.HasHeader b t ws) :
    (cluster b t ws).Legible (prototypeMacros ws) files (directory l.staged.files t.path) := by
  obtain ⟨hguards, hsatellites, hapart⟩ := List.nodup_append.1 h.nodup
  have hfiles : ((cluster b t ws).chapters.filterMap (·.satellite.map (·.file))).Nodup := by
    rw [satelliteGuards_cluster] at hsatellites
    exact List.Pairwise.of_map b.guard (fun _ _ hne heq => hne (congrArg b.guard heq)) hsatellites
  obtain ⟨hquote, -⟩ := h.fileNames t.path.fileName List.mem_cons_self
  have hfront := (Boilerplate.tame_opening h.banner).append h.preamble
  have hsatellite : ∀ w ∈ ws, ∀ e, (w.chapter b t).satellite = some e →
      Directive.isWord e.guard ∧
        e.guard ∉ (cluster b t ws).guards ++ prototypeMacros ws ∧ '"' ∉ e.file.toList ∧
        e.file ≠ t.path.fileName := by
    intro w hw e he
    have hmem := List.mem_append_right (cluster b t ws).guards (mem_satelliteGuards hw he)
    have hnew : e.guard ∉ (cluster b t ws).guards := fun hin =>
      hapart e.guard hin e.guard (mem_satelliteGuards hw he) rfl
    obtain ⟨-, -, -, hguard, -⟩ := w.satellite_eq_some he
    refine ⟨h.isWord_guard hmem, ?_, ?_, fun heq => hnew ?_⟩
    · intro hin
      rcases List.mem_append.1 hin with hin | hin
      · exact hnew hin
      · exact h.disjoint e.guard hin hmem
    · exact (h.fileNames e.file (mem_members hw he rfl)).1
    · rw [hguard, heq]
      exact List.mem_cons_self
  exact {
    word_guard := h.isWord_guard (List.mem_append_left _ List.mem_cons_self)
    words := List.forall_mem_map.2 fun w hw => h.isWord_name hw
    nodup_guards := hguards
    disjoint := fun m hm hin => h.disjoint m hm (List.mem_append_left _ hin)
    license := h.license
    front := hfront
    back := tame_back _ b t ws
    doc := List.forall_mem_map.2 h.docs
    nested_body := List.forall_mem_map.2 fun w hw => h.nested_body hw (hl.done w hw).1
    body := List.forall_mem_map.2 fun w hw _ => h.isClear_body hw
    header := h.header hl
    unquoted := hquote
    satellite := List.forall_mem_map.2 fun w hw e he => by
      obtain ⟨hword, hnew, hunquoted, hne⟩ := hsatellite w hw e he
      obtain ⟨-, -, -, -, hbefore⟩ := w.satellite_eq_some he
      refine ⟨h.satellite hl hw he, hword, hnew, ?_, hunquoted, hne⟩
      rw [hbefore]
      exact (Boilerplate.tame_opening h.banner).append (h.headers w hw)
    nodup_files := hfiles
    others := fun file hfile hne => by
      obtain ⟨hnew, hharmless⟩ := h.included file hfile hne
      refine ⟨List.forall_mem_map.2 fun w hw e he heq => hnew ?_, hharmless⟩
      exact mem_members hw he heq.symm }

end Readable

end ApiHeaders
