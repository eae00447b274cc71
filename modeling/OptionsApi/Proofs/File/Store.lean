import OptionsApi.Document.Workspace

/-! Laws of the file store. Writing over a file changes what lies at its place and nothing else: every
path leads where it led before, and the order in which different files are written does not matter. -/

set_option autoImplicit false

namespace OptionsApi

def FileNode.isDirectory : FileNode → Bool
  | .file .. => false
  | .directory => true

def FileNode.isWritable : FileNode → Bool
  | .file _ access => access.writable
  | .directory => false

def FileNode.refill (bytes : Text.Bytes) : FileNode → FileNode
  | .file _ access => .file bytes access
  | .directory => .directory

theorem FileNode.cases_of_kind {left right : Option FileNode}
    (kind : left.map isDirectory = right.map isDirectory) :
    left = none ∧ right = none ∨ left = some .directory ∧ right = some .directory ∨
      ∃ leftBytes leftAccess rightBytes rightAccess,
        left = some (.file leftBytes leftAccess) ∧ right = some (.file rightBytes rightAccess) := by
  rcases left with _ | ⟨leftBytes, leftAccess⟩ | _ <;>
    rcases right with _ | ⟨rightBytes, rightAccess⟩ | _ <;> simp_all [isDirectory]

namespace FileStore

/-! Putting a node over a file. -/

theorem lookup_overwrite (entries : List (List Text × FileNode)) (names other : List Text)
    (node : FileNode) :
    (entries.map fun entry => if entry.1 = names then (names, node) else entry).lookup other =
      if other = names then (entries.lookup names).map fun _ => node else entries.lookup other := by
  induction entries with
  | nil => simp
  | cons entry rest ih =>
    obtain ⟨key, held⟩ := entry
    rw [List.map_cons]
    by_cases here : key = names
    · subst here
      rw [if_pos rfl, List.lookup_cons, List.lookup_cons, List.lookup_cons, ih]
      by_cases same : other = key
      · simp [same]
      · simp [same, beq_eq_false_iff_ne.mpr same]
    · rw [if_neg here, List.lookup_cons, List.lookup_cons, List.lookup_cons, ih]
      by_cases same : other = names
      · subst same
        simp [beq_eq_false_iff_ne.mpr (Ne.symm here)]
      · simp [same]

theorem lookup_of_file {store : FileStore} {names : List Text} {bytes : Text.Bytes} {access : Access}
    (found : store.find? names = some (.file bytes access)) :
    store.entries.lookup names = some (.file bytes access) := by
  rw [find?] at found
  split at found
  next node listed => rwa [listed]
  next =>
    split at found
    · cases found
    · cases found

variable {store : FileStore} {names : List Text} {bytes : Text.Bytes} {access : Access}

theorem put_of_file (found : store.find? names = some (.file bytes access)) (node : FileNode) :
    store.put names node =
      { store with
        entries := store.entries.map fun entry => if entry.1 = names then (names, node) else entry } := by
  rw [put, lookup_of_file found]
  rfl

theorem find?_put (found : store.find? names = some (.file bytes access)) (node : FileNode)
    (other : List Text) :
    (store.put names node).find? other = if other = names then some node else store.find? other := by
  have keys : ∀ entry : List Text × FileNode,
      (if entry.1 = names then (names, node) else entry).1 = entry.1 := by
    intro entry
    split
    next same => exact same.symm
    next => rfl
  rw [put_of_file found, find?, lookup_overwrite, lookup_of_file found]
  by_cases same : other = names
  · simp only [if_pos same, Option.map_some]
  · simp only [if_neg same, List.any_map, Function.comp_def, keys]
    rfl

theorem put_comm {first second : List Text} (differ : first ≠ second)
    {firstBytes secondBytes : Text.Bytes} {firstAccess secondAccess : Access}
    (left : store.find? first = some (.file firstBytes firstAccess))
    (right : store.find? second = some (.file secondBytes secondAccess)) (one two : FileNode) :
    (store.put first one).put second two = (store.put second two).put first one := by
  have later : (store.put first one).find? second = some (.file secondBytes secondAccess) := by
    rw [find?_put left, if_neg differ.symm, right]
  have earlier : (store.put second two).find? first = some (.file firstBytes firstAccess) := by
    rw [find?_put right, if_neg differ, left]
  rw [put_of_file later, put_of_file earlier, put_of_file left, put_of_file right, List.map_map,
    List.map_map]
  congr 1
  apply List.map_congr_left
  intro entry _
  by_cases atFirst : entry.1 = first
  · simp [atFirst, differ]
  · by_cases atSecond : entry.1 = second
    · simp [atSecond, differ.symm]
    · simp [atFirst, atSecond]

def overwrite (store : FileStore) (change : List Text × Text.Bytes) : FileStore :=
  match store.find? change.1 with
  | some (.file _ access) => store.put change.1 (.file change.2 access)
  | _ => store

theorem overwrite_of_file (found : store.find? names = some (.file bytes access))
    (newBytes : Text.Bytes) :
    store.overwrite (names, newBytes) = store.put names (.file newBytes access) := by
  rw [overwrite.eq_def]
  simp only [found]

theorem find?_overwrite (store : FileStore) (change : List Text × Text.Bytes) (other : List Text) :
    (store.overwrite change).find? other =
      if other = change.1 then (store.find? other).map (FileNode.refill change.2)
      else store.find? other := by
  rw [overwrite.eq_def]
  split
  next bytes access found =>
    rw [find?_put found]
    split
    next same =>
      rw [same, found]
      rfl
    next => rfl
  next absent =>
    split
    next same =>
      rw [same]
      rcases held : store.find? change.1 with _ | ⟨bytes, access⟩ | _
      · rfl
      · exact absurd held (absent bytes access)
      · rfl
    next => rfl

theorem overwrite_comm (store : FileStore) {first second : List Text × Text.Bytes}
    (differ : first.1 ≠ second.1) :
    (store.overwrite first).overwrite second = (store.overwrite second).overwrite first := by
  obtain ⟨left, leftBytes⟩ := first
  obtain ⟨right, rightBytes⟩ := second
  have later := find?_overwrite store (left, leftBytes) right
  have earlier := find?_overwrite store (right, rightBytes) left
  rw [if_neg differ.symm] at later
  rw [if_neg differ] at earlier
  simp only [overwrite.eq_def (store.overwrite _), later, earlier]
  rcases atLeft : store.find? left with _ | ⟨oldLeft, leftAccess⟩ | _ <;>
    rcases atRight : store.find? right with _ | ⟨oldRight, rightAccess⟩ | _ <;>
    simp only [overwrite.eq_def, atLeft, atRight]
  exact put_comm differ atLeft atRight _ _

/-! Several files, one after another. -/

section
variable {changes others : List (List Text × Text.Bytes)}

def Disjoint (changes : List (List Text × Text.Bytes)) : Prop :=
  changes.Pairwise fun first second => first.1 ≠ second.1

theorem foldl_overwrite_of_perm (perm : changes.Perm others) (disjoint : Disjoint changes)
    (store : FileStore) : changes.foldl overwrite store = others.foldl overwrite store := by
  induction perm generalizing store with
  | nil => rfl
  | cons change _ ih => exact ih disjoint.tail (store.overwrite change)
  | swap first second rest =>
    have differ : second.1 ≠ first.1 := List.rel_of_pairwise_cons disjoint List.mem_cons_self
    rw [List.foldl_cons, List.foldl_cons, List.foldl_cons, List.foldl_cons,
      overwrite_comm store differ]
  | trans left _ ihLeft ihRight =>
    rw [ihLeft disjoint store, ihRight ((left.pairwise_iff Ne.symm).mp disjoint) store]

theorem find?_foldl_overwrite_of_forall_ne (elsewhere : ∀ change ∈ changes, change.1 ≠ names)
    (store : FileStore) : (changes.foldl overwrite store).find? names = store.find? names := by
  induction changes generalizing store with
  | nil => rfl
  | cons change rest ih =>
    obtain ⟨here, later⟩ := List.forall_mem_cons.mp elsewhere
    rw [List.foldl_cons, ih later, find?_overwrite, if_neg here.symm]

theorem find?_foldl_overwrite_of_mem (disjoint : Disjoint changes) {change : List Text × Text.Bytes}
    (member : change ∈ changes) (store : FileStore) :
    (changes.foldl overwrite store).find? change.1 =
      (store.find? change.1).map (FileNode.refill change.2) := by
  induction changes generalizing store with
  | nil => exact absurd member List.not_mem_nil
  | cons first rest ih =>
    obtain ⟨apart, disjoint⟩ := List.pairwise_cons.mp disjoint
    rw [List.foldl_cons]
    rcases List.mem_cons.mp member with rfl | later
    · rw [find?_foldl_overwrite_of_forall_ne fun other among => (apart other among).symm,
        find?_overwrite, if_pos rfl]
    · rw [ih disjoint later, find?_overwrite, if_neg (apart change later).symm]

end

/-! Where paths lead. -/

/-- The same directories, and files at the same places, for the same paths. -/
structure SameShape (left right : FileStore) : Prop where
  kind : ∀ names,
    (left.find? names).map FileNode.isDirectory = (right.find? names).map FileNode.isDirectory
  workingDirectory : left.workingDirectory = right.workingDirectory
  unencodable : left.unencodable = right.unencodable
  unnameable : left.unnameable = right.unnameable

theorem SameShape.refl (store : FileStore) : store.SameShape store := ⟨fun _ => rfl, rfl, rfl, rfl⟩

theorem sameShape_overwrite (store : FileStore) (change : List Text × Text.Bytes) :
    store.SameShape (store.overwrite change) where
  kind other := by
    rw [find?_overwrite]
    split
    next =>
      rw [Option.map_map]
      congr 1
      funext node
      cases node <;> rfl
    next => rfl
  workingDirectory := by
    rw [overwrite.eq_def]
    split <;> rfl
  unencodable := by
    rw [overwrite.eq_def]
    split <;> rfl
  unnameable := by
    rw [overwrite.eq_def]
    split <;> rfl

theorem walk_of_sameShape {left right : FileStore} (same : left.SameShape right)
    (names parts : List Text) : left.walk names parts = right.walk names parts := by
  induction parts generalizing names with
  | nil => rfl
  | cons part rest ih =>
    rw [walk, walk, ih]
    obtain ⟨here, there⟩ | ⟨here, there⟩ | ⟨_, _, _, _, here, there⟩ :=
      FileNode.cases_of_kind (same.kind names)
    · rw [here, there]
    · rw [here, there]
    · simp only [here, there]

theorem locate_of_sameShape {left right : FileStore} (same : left.SameShape right) (path : Path) :
    left.locate path = right.locate path := by
  rw [locate, locate, walk_of_sameShape same, origin, origin, same.workingDirectory]

/-- The place of the file to which a path leads, if it leads to one. -/
def place? (store : FileStore) (path : Text) : Option (List Text) :=
  match Path.read store.unnameable path with
  | .error _ => none
  | .ok path =>
    match store.locate path with
    | .error _ => none
    | .ok names =>
      match store.find? names with
      | some (.file ..) => some names
      | _ => none

def Elsewhere (store : FileStore) (first second : Text) : Prop :=
  ∀ names ∈ store.place? first, store.place? second ≠ some names

instance (store : FileStore) : Std.Symm store.Elsewhere where
  symm _ _ differ names placed same := differ names same placed

instance (store : FileStore) : DecidableRel store.Elsewhere := fun first second =>
  inferInstanceAs (Decidable (∀ names ∈ store.place? first, store.place? second ≠ some names))

/-- No two of the paths lead to one file. -/
def Apart (store : FileStore) (paths : List Text) : Prop := paths.Pairwise store.Elsewhere

instance (store : FileStore) (paths : List Text) : Decidable (store.Apart paths) :=
  inferInstanceAs (Decidable (paths.Pairwise store.Elsewhere))

theorem place?_eq_some {path : Text} (placed : store.place? path = some names) :
    ∃ place bytes access, Path.read store.unnameable path = .ok place ∧
      store.locate place = .ok names ∧ store.find? names = some (.file bytes access) := by
  rw [place?.eq_def] at placed
  split at placed
  · cases placed
  next place read =>
    split at placed
    · cases placed
    next names located =>
      split at placed
      next bytes access found =>
        cases placed
        exact ⟨place, bytes, access, read, located, found⟩
      next => cases placed

theorem place?_of_sameShape {left right : FileStore} (same : left.SameShape right) (path : Text) :
    left.place? path = right.place? path := by
  rw [place?, place?, same.unnameable]
  cases Path.read right.unnameable path with
  | error error => rfl
  | ok place =>
    dsimp only
    rw [locate_of_sameShape same]
    cases right.locate place with
    | error fault => rfl
    | ok names =>
      dsimp only
      obtain ⟨here, there⟩ | ⟨here, there⟩ | ⟨_, _, _, _, here, there⟩ :=
        FileNode.cases_of_kind (same.kind names)
      · rw [here, there]
      · rw [here, there]
      · simp only [here, there]

def mayWrite (store : FileStore) (path : Text) : Bool :=
  ((store.place? path).bind store.find?).any FileNode.isWritable

/-- Two stores that a path cannot tell apart: it leads to the same place in both, and to the same
file if it leads to one. -/
structure AgreeAt (path : Text) (left right : FileStore) : Prop where
  shape : left.SameShape right
  file : ∀ names, left.place? path = some names → left.find? names = right.find? names

theorem AgreeAt.refl (path : Text) (store : FileStore) : AgreeAt path store store :=
  ⟨.refl store, fun _ _ => rfl⟩

theorem agreeAt_overwrite {path : Text} {change : List Text × Text.Bytes}
    (elsewhere : store.place? path ≠ some change.1) :
    AgreeAt path store (store.overwrite change) where
  shape := sameShape_overwrite store change
  file other placed := by
    have differ : other ≠ change.1 := fun same => elsewhere (same ▸ placed)
    rw [find?_overwrite, if_neg differ]

theorem AgreeAt.find? {path : Text} {left right : FileStore} (agree : AgreeAt path left right)
    {place : Path} (read : Path.read left.unnameable path = .ok place) {names : List Text}
    (located : left.locate place = .ok names) : left.find? names = right.find? names := by
  obtain ⟨here, there⟩ | ⟨here, there⟩ | ⟨_, _, _, _, here, there⟩ :=
    FileNode.cases_of_kind (agree.shape.kind names)
  · rw [here, there]
  · rw [here, there]
  · have placed : left.place? path = some names := by simp only [place?, read, located, here]
    exact agree.file names placed

theorem AgreeAt.mayWrite {path : Text} {left right : FileStore} (agree : AgreeAt path left right) :
    left.mayWrite path = right.mayWrite path := by
  rw [FileStore.mayWrite, FileStore.mayWrite, ← place?_of_sameShape agree.shape]
  cases placed : left.place? path with
  | none => rfl
  | some names => rw [Option.bind_some, Option.bind_some, agree.file names placed]

theorem AgreeAt.load {path : Text} {left right : FileStore} (agree : AgreeAt path left right) :
    left.load path = right.load path := by
  rw [FileStore.load, FileStore.load, ← agree.shape.unnameable]
  cases read : Path.read left.unnameable path with
  | error error => rfl
  | ok place =>
    have same : left.read place = right.read place := by
      rw [FileStore.read, FileStore.read, ← locate_of_sameShape agree.shape]
      cases located : left.locate place with
      | error fault => rfl
      | ok names =>
        dsimp only
        rw [agree.find? read located]
    dsimp only
    rw [same]

/-! Loading and saving. -/

theorem read_eq_ok {place : Path} (got : store.read place = .ok bytes) :
    ∃ names access, store.locate place = .ok names ∧
      store.find? names = some (.file bytes access) ∧ access.readable = true := by
  rw [FileStore.read.eq_def] at got
  split at got
  · cases got
  next names located =>
    split at got
    next held access found =>
      split at got
      next readable =>
        cases got
        exact ⟨names, access, located, found, readable⟩
      next => cases got
    next => cases got
    next => cases got

theorem load_eq_ok {path : Text} {document : Document} (loaded : store.load path = .ok document) :
    document.path = some path ∧ ∃ names bytes access, store.place? path = some names ∧
      store.find? names = some (.file bytes access) ∧ access.readable = true := by
  rw [load.eq_def] at loaded
  split at loaded
  · cases loaded
  next place read =>
    split at loaded
    · cases loaded
    next bytes got =>
      split at loaded
      · cases loaded
      next text decoded =>
        cases loaded
        obtain ⟨names, access, located, found, readable⟩ := read_eq_ok got
        have placed : store.place? path = some names := by simp only [place?, read, located, found]
        exact ⟨rfl, names, bytes, access, placed, found, readable⟩

theorem path_of_read {unnameable : List Char} {path : Text} {place : Path}
    (read : Path.read unnameable path = .ok place) : place = Path.ofText path := by
  rw [Path.read] at read
  split at read
  · cases read
  next =>
    split at read
    · cases read
    · cases read
      rfl

/-- Saving a document where it came from needs no more than that the file may be written and the text
encoded. Without the latter the file is left empty. -/
theorem save_eq {path : Text} {document : Document} (source : document.path = some path)
    (placed : store.place? path = some names) :
    store.save document none =
      if store.mayWrite path then
        match Text.encode store.unencodable document.text with
        | .ok bytes => (.ok path, store.overwrite (names, bytes))
        | .error error => (.error (.encoding error), store.overwrite (names, []))
      else (.error (.file ⟨.denied, Path.ofText path⟩), store) := by
  obtain ⟨place, bytes, access, read, located, found⟩ := place?_eq_some placed
  have target : document.saveTarget? none = some path := by
    rw [Document.saveTarget?, source]
    rfl
  have allowed : store.mayWrite path = access.writable := by
    rw [mayWrite, placed, Option.bind_some, found]
    rfl
  simp only [save, target, read, write, located, found, allowed, overwrite_of_file found]
  rw [path_of_read read]
  cases access.writable with
  | false => rfl
  | true => cases Text.encode store.unencodable document.text <;> rfl

end FileStore

end OptionsApi
