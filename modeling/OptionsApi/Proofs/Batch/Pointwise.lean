import Mathlib.Data.List.Basic
import Mathlib.Data.List.Pairwise
import OptionsApi.Proofs.Batch.Steps

/-! A batch of different files is pointwise. Each step reads and writes its own file only, so each
report is that of its file alone, and the order of the files does not matter. -/

set_option autoImplicit false

namespace OptionsApi

section
variable (extract : Extractor) (settings : Settings) (write : Bool) {files : FileStore}
  {path : Text} {paths : List Text} {reports : List Report}

theorem sameShape_convertFile :
    files.SameShape (convertFile extract settings write files path).files := by
  rw [convertFile_files]
  cases written? extract settings write files path with
  | none => exact .refl files
  | some change => exact FileStore.sameShape_overwrite files change

theorem agreeAt_convertFile {other : Text} (elsewhere : files.Elsewhere path other) :
    FileStore.AgreeAt other files (convertFile extract settings write files path).files := by
  rw [convertFile_files]
  cases wrote : written? extract settings write files path with
  | none => exact FileStore.AgreeAt.refl other files
  | some change =>
    exact FileStore.agreeAt_overwrite (elsewhere change.1 (written?_eq_some wrote).1)

theorem apart_convertFile (apart : files.Apart (path :: paths)) :
    (convertFile extract settings write files path).files.Apart paths ∧
      ∀ other ∈ paths,
        FileStore.AgreeAt other files (convertFile extract settings write files path).files := by
  -- The step keeps the shape of the store, so the places that were apart stay apart.
  obtain ⟨elsewhere, apart⟩ := List.pairwise_cons.mp apart
  constructor
  · refine List.Pairwise.imp ?_ apart
    intro first second differ names
    rw [← FileStore.place?_of_sameShape (sameShape_convertFile extract settings write),
      ← FileStore.place?_of_sameShape (sameShape_convertFile extract settings write)]
    exact differ names
  · exact fun other member => agreeAt_convertFile extract settings write (elsewhere other member)

variable {extract settings write}

/-- A batch returns the reports that its files give on their own, if each of them gives one. -/
theorem convertFiles_eq_ok_iff (apart : files.Apart paths) :
    (convertFiles extract settings write files paths).outcome = .ok reports ↔
      paths.map (fun path => (convertFile extract settings write files path).outcome) =
        reports.map .ok := by
  induction paths generalizing files reports with
  | nil => cases reports <;> simp [convertFiles]
  | cons path paths ih =>
    obtain ⟨ahead, agree⟩ := apart_convertFile extract settings write apart
    have same : paths.map (fun other => (convertFile extract settings write files other).outcome) =
        paths.map fun other => (convertFile extract settings write
          (convertFile extract settings write files path).files other).outcome :=
      List.map_congr_left fun other member => convertFile_of_agree (agree other member)
    rw [convertFiles_cons_eq_ok, List.map_cons, same]
    constructor
    · rintro ⟨report, rest, first, later, rfl⟩
      rw [first, (ih ahead).mp later, List.map_cons]
    · intro all
      cases reports with
      | nil => cases all
      | cons report rest =>
        obtain ⟨first, later⟩ := List.cons.inj all
        exact ⟨report, rest, first, (ih ahead).mpr later, rfl⟩

/-- The files after a batch: each is written over as the file on its own would be. -/
theorem convertFiles_files (apart : files.Apart paths)
    (returned : (convertFiles extract settings write files paths).outcome = .ok reports) :
    (convertFiles extract settings write files paths).files =
      (paths.filterMap (written? extract settings write files)).foldl FileStore.overwrite files := by
  induction paths generalizing files reports with
  | nil => rfl
  | cons path paths ih =>
    obtain ⟨ahead, agree⟩ := apart_convertFile extract settings write apart
    obtain ⟨report, rest, first, later, rfl⟩ := convertFiles_cons_eq_ok.mp returned
    have same : paths.filterMap (written? extract settings write files) =
        paths.filterMap (written? extract settings write
          (convertFile extract settings write files path).files) :=
      List.filterMap_congr fun other member => written?_of_agree (agree other member)
    rw [convertFiles_cons_files first, ih ahead later, ← same, convertFile_files]
    cases wrote : written? extract settings write files path with
    | none => rw [List.filterMap_cons_none wrote, Option.elim_none]
    | some change => rw [List.filterMap_cons_some wrote, Option.elim_some, List.foldl_cons]

theorem disjoint_written (apart : files.Apart paths) :
    FileStore.Disjoint (paths.filterMap (written? extract settings write files)) := by
  rw [FileStore.Disjoint, List.pairwise_filterMap]
  refine List.Pairwise.imp ?_ apart
  intro first second differ one wroteFirst two wroteSecond same
  refine differ one.1 (written?_eq_some wroteFirst).1 ?_
  rw [(written?_eq_some wroteSecond).1, same]

theorem find?_convertFiles_of_mem (apart : files.Apart paths)
    (returned : (convertFiles extract settings write files paths).outcome = .ok reports)
    (member : path ∈ paths) {names : List Text} (placed : files.place? path = some names) :
    (convertFiles extract settings write files paths).files.find? names =
      (written? extract settings write files path).elim (files.find? names) fun change =>
        (files.find? names).map (FileNode.refill change.2) := by
  rw [convertFiles_files apart returned]
  cases wrote : written? extract settings write files path with
  | some change =>
    have here : names = change.1 := Option.some.inj (placed.symm.trans (written?_eq_some wrote).1)
    have among : change ∈ paths.filterMap (written? extract settings write files) :=
      List.mem_filterMap.mpr ⟨path, member, wrote⟩
    rw [here, FileStore.find?_foldl_overwrite_of_mem (disjoint_written apart) among,
      Option.elim_some]
  | none =>
    rw [Option.elim_none]
    apply FileStore.find?_foldl_overwrite_of_forall_ne
    intro change among same
    obtain ⟨other, listed, wroteOther⟩ := List.mem_filterMap.mp among
    have differ : path ≠ other := by
      rintro rfl
      cases wrote.symm.trans wroteOther
    have elsewhere : files.Elsewhere path other := apart.forall member listed differ
    exact elsewhere names placed (same ▸ (written?_eq_some wroteOther).1)

theorem find?_convertFiles_of_unlisted (apart : files.Apart paths)
    (returned : (convertFiles extract settings write files paths).outcome = .ok reports)
    {names : List Text} (unlisted : ∀ path ∈ paths, files.place? path ≠ some names) :
    (convertFiles extract settings write files paths).files.find? names = files.find? names := by
  rw [convertFiles_files apart returned]
  apply FileStore.find?_foldl_overwrite_of_forall_ne
  intro change among same
  obtain ⟨path, listed, wrote⟩ := List.mem_filterMap.mp among
  exact unlisted path listed (same ▸ (written?_eq_some wrote).1)

theorem exists_zip_of_perm {ε α β : Type} {result : α → Except ε β} {items order : List α}
    (perm : items.Perm order) {values : List β} (all : items.map result = values.map .ok) :
    ∃ others, order.map result = others.map .ok ∧ (items.zip values).Perm (order.zip others) := by
  induction perm generalizing values with
  | nil =>
    cases values with
    | nil => exact ⟨[], rfl, .nil⟩
    | cons value rest => cases all
  | cons item perm ih =>
    cases values with
    | nil => cases all
    | cons value rest =>
      obtain ⟨first, later⟩ := List.cons.inj all
      obtain ⟨others, all, zipped⟩ := ih later
      exact ⟨value :: others, by rw [List.map_cons, first, all, List.map_cons], zipped.cons _⟩
  | swap first second items =>
    rcases values with _ | ⟨one, _ | ⟨two, rest⟩⟩
    · cases all
    · cases (List.cons.inj all).2
    · obtain ⟨atSecond, later⟩ := List.cons.inj all
      obtain ⟨atFirst, later⟩ := List.cons.inj later
      refine ⟨two :: one :: rest, ?_, .swap ..⟩
      simp only [List.map_cons, atFirst, atSecond, later]
  | trans _ _ ihLeft ihRight =>
    obtain ⟨between, all, left⟩ := ihLeft all
    obtain ⟨others, all, right⟩ := ihRight all
    exact ⟨others, all, left.trans right⟩

theorem outcome_of_mem_zip {ε α β : Type} {result : α → Except ε β} {items : List α} {values : List β}
    (all : items.map result = values.map .ok) {item : α} {value : β}
    (member : (item, value) ∈ items.zip values) : result item = .ok value := by
  induction items generalizing values with
  | nil => cases member
  | cons first rest ih =>
    cases values with
    | nil => cases member
    | cons one more =>
      obtain ⟨here, later⟩ := List.cons.inj all
      rw [List.zip_cons_cons] at member
      rcases List.mem_cons.mp member with same | member
      · cases same
        exact here
      · exact ih later member

/-- Whatever the order of the paths, each has its report and the files are the same in the end. -/
theorem convertFiles_of_perm (apart : files.Apart paths)
    (returned : (convertFiles extract settings write files paths).outcome = .ok reports)
    {order : List Text} (perm : paths.Perm order) :
    ∃ others, (convertFiles extract settings write files order).outcome = .ok others ∧
      (paths.zip reports).Perm (order.zip others) ∧
      (convertFiles extract settings write files order).files =
        (convertFiles extract settings write files paths).files := by
  have apart' : files.Apart order := (perm.pairwise_iff fun differ => symm differ).mp apart
  obtain ⟨others, all, zipped⟩ :=
    exists_zip_of_perm perm ((convertFiles_eq_ok_iff apart).mp returned)
  have returned' := (convertFiles_eq_ok_iff apart').mpr all
  refine ⟨others, returned', zipped, ?_⟩
  rw [convertFiles_files apart' returned', convertFiles_files apart returned]
  exact (FileStore.foldl_overwrite_of_perm (perm.filterMap _) (disjoint_written apart) files).symm

end

/-- A batch of different files is pointwise. If it comes to an end, each report is the one that its
file gives alone in the files as they were. A listed file has other bytes afterwards only if it was to
be written and its report says that it was converted, and then they are those of the text that its
conversion alone gives; what no listed path leads to is as it was. So another order of the paths gives
the reports in that order, and the same files. -/
theorem convertFiles_pointwise (extract : Extractor) (settings : Settings) (write : Bool)
    (files : FileStore) (paths : List Text) (reports : List Report) (apart : files.Apart paths)
    (returned : (convertFiles extract settings write files paths).outcome = .ok reports) :
    let final := (convertFiles extract settings write files paths).files
    paths.map (fun path => (convertFile extract settings write files path).outcome) =
        reports.map .ok ∧
      (∀ path report, (path, report) ∈ paths.zip reports →
        ∀ names bytes access, files.place? path = some names →
          files.find? names = some (.file bytes access) →
            (¬ (write = true ∧ report.status = .converted) ∧
              final.find? names = some (.file bytes access)) ∨
            (write = true ∧ report.status = .converted) ∧
              ∃ document converted session, files.load path = .ok document ∧
                (convertDocument extract settings .edit).run.run { document } =
                  (.ok (some converted), session) ∧
                final.find? names =
                  some (.file (Text.encodeUtf8 session.document.text) access) ∧
                Text.decodeUtf8 (Text.encodeUtf8 session.document.text) =
                  .ok session.document.text) ∧
      (∀ names, (∀ path ∈ paths, files.place? path ≠ some names) →
        final.find? names = files.find? names) ∧
      ∀ order, paths.Perm order → ∃ others,
        (convertFiles extract settings write files order).outcome = .ok others ∧
          (paths.zip reports).Perm (order.zip others) ∧
          (convertFiles extract settings write files order).files = final := by
  have alone := (convertFiles_eq_ok_iff apart).mp returned
  refine ⟨alone, ?_, ?_, ?_⟩
  · intro path report listed names bytes access placed found
    have own := outcome_of_mem_zip alone listed
    have after := find?_convertFiles_of_mem apart returned (List.of_mem_zip listed).1 placed
    rw [← isSome_written? own, after, found]
    cases wrote : written? extract settings write files path with
    | none => exact .inl ⟨Bool.false_ne_true, rfl⟩
    | some change =>
      obtain ⟨document, converted, session, loaded, ran, encoded⟩ := bytes_of_written? wrote own
      refine .inr ⟨rfl, document, converted, session, loaded, ran, ?_,
        Text.decodeUtf8_encodeUtf8 session.document.text⟩
      rw [Option.elim_some, (Text.encode_eq_ok_iff.mp encoded).2]
      rfl
  · intro names unlisted
    exact find?_convertFiles_of_unlisted apart returned unlisted
  · intro order perm
    exact convertFiles_of_perm apart returned perm

/-- What is stored in the first of the three files: a letter of two bytes that was behind the class,
and the object that is exported in its place. -/
def firstStored : Text.Bytes :=
  [0xC3, 0xA9, 10, 10, 101, 120, 112, 111, 114, 116, 32, 100, 101, 102, 97, 117, 108, 116, 32, 86, 117,
    101, 46, 101, 120, 116, 101, 110, 100, 40, 123, 10, 32, 32, 32, 32, 110, 97, 109, 101, 58, 32, 39,
    65, 39, 10, 125, 41, 59, 10]

theorem threeFiles_pointwise :
    let batch := convertFiles oneCharacterClass {} true threeFiles
    let order : List Text := ["../w/c", "a", "/w/b"]
    threeFiles.Apart threePaths ∧
      ∃ reports, (batch threePaths).outcome = .ok reports ∧
        reports.map Report.status = [.converted, .failed, .skipped] ∧
        (batch order).files = (batch threePaths).files ∧
        (batch threePaths).files.find? [['w'], ['a']] = some (.file firstStored) ∧
        (batch threePaths).files.find? [['w'], ['b']] = some (.file [0xFF]) ∧
        (batch threePaths).files.find? [['w'], ['c']] = some (.file [0x79]) := by
  have apart : threeFiles.Apart threePaths := by decide
  refine ⟨apart, _, rfl, rfl, ?_, rfl, rfl, rfl⟩
  obtain ⟨_, _, _, reordered⟩ :=
    convertFiles_pointwise oneCharacterClass {} true threeFiles _ _ apart rfl
  obtain ⟨_, _, _, same⟩ := reordered _ (@List.perm_append_comm Text ["a", "/w/b"] ["../w/c"])
  exact same

end OptionsApi
