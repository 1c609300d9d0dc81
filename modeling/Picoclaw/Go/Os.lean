import Mathlib.Data.List.Sort
import Mathlib.Data.List.Lex
import Mathlib.Data.Char
import Picoclaw.Go.Map
import Picoclaw.Go.Filepath

/-!
# `os` on a file tree: `ReadFile`, `WriteFile`, `MkdirAll` and `ReadDir`

A disk is a tree of directories and regular files (`FileTree`). A path names the node of its
cleaned form (`pathKey`): whether it is rooted, and the stack of elements `Clean` keeps, the last
one on top. The directory a node sits in is then the node of the stack's tail, and the root of
a rooted path, like the working directory of a relative one, is a directory that is always
there (`nodeAt`). Symbolic links are not modelled, and `..` is read as `Clean` reads it.

A call fails as the kernel fails it for the shape of the tree: a node that is not there is
`ENOENT`, unless a file stands where one of its directories should be (`ENOTDIR`), and a
directory where a file is needed is `EISDIR`. Permissions, quotas and a full disk are not
modelled: on a tree of the right shape every call succeeds.

**The invariant** (`Consistent`): every node's key is a stack `Clean` can end with, and the node
sits in a directory. `WriteFile` and `MkdirAll` keep it (`consistent_writeFile`,
`consistent_mkdirAll`), so on a disk nothing ever sits under a file.

**The laws.**
- `writeFile_cases`: `WriteFile` writes its own node, or fails and writes nothing.
- `get?_mkdirAll_of_some`, `get?_mkdirAllStack_eq`: `MkdirAll` keeps every node that is there and
  adds only directories, so its files are the files that were there (`get?_mkdirAll_file`). With `writeFile_cases` this is the frame of every handler built on these
  calls: a file that no call writes stays as it is.
- `nodeAt_mkdirAll`: when `MkdirAll` succeeds the path is a directory.
- `mem_children`: a directory's entries are the nodes one element below it.
-/

namespace Picoclaw.Go

/-- A path as the file tree reads it: rooted or not, and the elements `Clean` keeps, the last
one on top. -/
structure PathKey where
  rooted : Bool
  stack : List (List Char)
  deriving DecidableEq, Repr

/-- The node a path names: the one of its cleaned form. -/
def pathKey (path : String) : PathKey := ⟨decide (path.data.head? = some '/'), cleanStack path⟩

/-- The directory a node sits in. -/
def PathKey.parent (k : PathKey) : PathKey := ⟨k.rooted, k.stack.tail⟩

/-- A node: a regular file with its bytes, or a directory. -/
inductive Node where
  | file (data : List UInt8)
  | dir
  deriving DecidableEq, Repr

/-- The nodes of a disk by key; the root and the working directory are not stored. -/
abbrev FileTree := GoMap PathKey Node

theorem NormalStack.tail {rooted : Bool} {e : List Char} {kept : List (List Char)}
    (h : NormalStack rooted (e :: kept)) : NormalStack rooted kept := by
  cases h with
  | real h _ => exact h
  | dotdot h _ _ => exact h

/-! ## Keys of cleaned and joined paths -/

/-- A cleaned path names the node the path names. -/
theorem pathKey_clean (path : String) : pathKey (clean path) = pathKey path := by
  obtain ⟨hroot, hstack⟩ := clean_canonical path
  simp only [pathKey, hroot, hstack]

/-- A real element written after a non-empty path names a node one element below it. -/
theorem pathKey_append_elem {p : String} (hp : p ≠ "") {e : String} (he : RealElem e.data) :
    pathKey (p ++ "/" ++ e) = ⟨(pathKey p).rooted, e.data :: (pathKey p).stack⟩ := by
  obtain ⟨hhead, hstack⟩ := cleanStack_append_elem hp he
  simp only [pathKey, hhead, hstack]

theorem join_pair {d : String} (hd : d ≠ "") (e : String) : join [d, e] = clean (d ++ "/" ++ e) := by
  simp [join, hd, String.intercalate, String.intercalate.go]

theorem join_triple {d : String} (hd : d ≠ "") (e₁ e₂ : String) :
    join [d, e₁, e₂] = clean (d ++ "/" ++ e₁ ++ "/" ++ e₂) := by
  simp [join, hd, String.intercalate, String.intercalate.go, String.append_assoc]

theorem append_slash_ne_empty (p e : String) : p ++ "/" ++ e ≠ "" := fun h => by
  have h' : (p ++ "/" ++ e).data = [] := congrArg String.data h
  simp at h'

/-- **`Join(d, e)` names the node `e` below `d`'s**, for a real element `e`. -/
theorem pathKey_join_elem {d : String} (hd : d ≠ "") {e : String} (he : RealElem e.data) :
    pathKey (join [d, e]) = ⟨(pathKey d).rooted, e.data :: (pathKey d).stack⟩ := by
  rw [join_pair hd, pathKey_clean, pathKey_append_elem hd he]

/-- `Join(d, e₁, e₂)` names the node `e₂` below `e₁` below `d`'s, for real elements. -/
theorem pathKey_join_elems {d : String} (hd : d ≠ "") {e₁ e₂ : String} (he₁ : RealElem e₁.data)
    (he₂ : RealElem e₂.data) :
    pathKey (join [d, e₁, e₂]) = ⟨(pathKey d).rooted, e₂.data :: e₁.data :: (pathKey d).stack⟩ := by
  rw [join_triple hd, pathKey_clean, pathKey_append_elem (append_slash_ne_empty d e₁) he₂,
    pathKey_append_elem hd he₁]

namespace Os

/-- The node at a key. The root of a rooted path and the working directory of a relative one
(the empty stack) are directories that are always there. -/
def nodeAt (t : FileTree) (k : PathKey) : Option Node :=
  if k.stack = [] then some .dir else t.get? k

/-- The errno of a failed call, as `os.IsNotExist` and the messages tell them apart. -/
inductive FsError where
  | notExist
  | notDir
  | isDir
  deriving DecidableEq, Repr

/-- A call's result can be compared, so that a run on a given tree can be decided. -/
instance decEqExcept {ε α : Type} [DecidableEq ε] [DecidableEq α] : DecidableEq (Except ε α)
  | .error e, .error e' => decidable_of_iff (e = e') ⟨congrArg _, Except.error.inj⟩
  | .ok a, .ok a' => decidable_of_iff (a = a') ⟨congrArg _, Except.ok.inj⟩
  | .error _, .ok _ => isFalse fun h => Except.noConfusion h
  | .ok _, .error _ => isFalse fun h => Except.noConfusion h

/-- Why the walk to a missing node stops, looking at its directories from the nearest up: the
nearest one that is there decides, a file making it `ENOTDIR`. -/
def missingError (t : FileTree) (rooted : Bool) : List (List Char) → FsError
  | [] => .notExist
  | e :: S =>
    match t.get? ⟨rooted, e :: S⟩ with
    | some (.file _) => .notDir
    | some .dir => .notExist
    | none => missingError t rooted S

/-- `os.ReadFile(path)`. -/
def readFile (t : FileTree) (path : String) : Except FsError (List UInt8) :=
  let k := pathKey path
  match nodeAt t k with
  | some (.file data) => .ok data
  | some .dir => .error .isDir
  | none => .error (missingError t k.rooted k.stack.tail)

/-- `os.WriteFile(path, data, perm)`: a file is truncated and written, a missing one is created
in its directory, and a directory is `EISDIR`. -/
def writeFile (t : FileTree) (path : String) (data : List UInt8) :
    FileTree × Except FsError Unit :=
  let k := pathKey path
  match nodeAt t k with
  | some .dir => (t, .error .isDir)
  | some (.file _) => (t.set k (.file data), .ok ())
  | none =>
    if nodeAt t k.parent = some .dir then (t.set k (.file data), .ok ())
    else (t, .error (missingError t k.rooted k.stack.tail))

/-- `os.MkdirAll` on the stack of a path, as Go recurses: a directory there is done, a file
there is `ENOTDIR`, and otherwise the directories above are made first, then this one. -/
def mkdirAllStack (t : FileTree) (rooted : Bool) :
    List (List Char) → FileTree × Except FsError Unit
  | [] => (t, .ok ())
  | e :: S =>
    match t.get? ⟨rooted, e :: S⟩ with
    | some .dir => (t, .ok ())
    | some (.file _) => (t, .error .notDir)
    | none =>
      match mkdirAllStack t rooted S with
      | (t', .ok ()) => (t'.set ⟨rooted, e :: S⟩ .dir, .ok ())
      | (t', .error err) => (t', .error err)

/-- `os.MkdirAll(path, perm)`. -/
def mkdirAll (t : FileTree) (path : String) : FileTree × Except FsError Unit :=
  mkdirAllStack t (pathKey path).rooted (pathKey path).stack

/-- The entries of the directory at `k`: each node one element below it, under that element. -/
def children (t : FileTree) (k : PathKey) : List (String × Node) :=
  t.entries.filterMap fun kn =>
    match kn.1.stack with
    | e :: S => if kn.1.rooted = k.rooted ∧ S = k.stack then some (String.mk e, kn.2) else none
    | [] => none

/-- `os.ReadDir(path)`: the entries, sorted by name. -/
def readDir (t : FileTree) (path : String) : Except FsError (List (String × Node)) :=
  let k := pathKey path
  match nodeAt t k with
  | some .dir => .ok ((children t k).insertionSort fun a b => a.1.data ≤ b.1.data)
  | some (.file _) => .error .notDir
  | none => .error (missingError t k.rooted k.stack.tail)

/-! ## What a call writes -/

theorem nodeAt_of_ne_nil {t : FileTree} {k : PathKey} (h : k.stack ≠ []) :
    nodeAt t k = t.get? k := if_neg h

theorem nodeAt_set_of_ne (t : FileTree) {k k' : PathKey} (h : k ≠ k') (n : Node) :
    nodeAt (t.set k n) k' = nodeAt t k' := by
  simp only [nodeAt, GoMap.get?_set, if_neg h]

theorem readFile_eq_ok {t : FileTree} {path : String} {data : List UInt8} :
    readFile t path = .ok data ↔ nodeAt t (pathKey path) = some (.file data) := by
  unfold readFile
  dsimp only
  split <;> simp_all

/-- Only a node below the root can be a file. -/
theorem stack_ne_nil_of_nodeAt_file {t : FileTree} {k : PathKey} {d : List UInt8}
    (h : nodeAt t k = some (.file d)) : k.stack ≠ [] := fun hk => by
  simp [nodeAt, hk] at h

theorem get?_of_readFile_eq_ok {t : FileTree} {path : String} {d : List UInt8}
    (h : readFile t path = .ok d) : t.get? (pathKey path) = some (.file d) := by
  have h' := readFile_eq_ok.mp h
  rwa [nodeAt_of_ne_nil (stack_ne_nil_of_nodeAt_file h')] at h'

/-- **`WriteFile` writes its own node, or fails and writes nothing.** -/
theorem writeFile_cases (t : FileTree) (path : String) (data : List UInt8) :
    writeFile t path data = (t.set (pathKey path) (.file data), .ok ()) ∨
      ∃ e, writeFile t path data = (t, .error e) := by
  unfold writeFile
  dsimp only
  split
  · exact .inr ⟨_, rfl⟩
  · exact .inl rfl
  · split_ifs
    · exact .inl rfl
    · exact .inr ⟨_, rfl⟩

/-- A file is always written over. -/
theorem writeFile_of_file {t : FileTree} {path : String} {old : List UInt8}
    (h : nodeAt t (pathKey path) = some (.file old)) (data : List UInt8) :
    writeFile t path data = (t.set (pathKey path) (.file data), .ok ()) := by
  simp only [writeFile, h]

/-- A file another call does not write stays as it is. -/
theorem get?_writeFile_of_ne (t : FileTree) {path : String} {k : PathKey} (h : pathKey path ≠ k)
    (data : List UInt8) : (writeFile t path data).1.get? k = t.get? k := by
  rcases writeFile_cases t path data with hw | ⟨e, hw⟩ <;> rw [hw]
  exact (GoMap.get?_set _ _ _ _).trans (if_neg h)

/-- `WriteFile` writes over files only: a file stays a file. -/
theorem writeFile_file_stays {t : FileTree} {k : PathKey} {d : List UInt8}
    (h : t.get? k = some (.file d)) (path : String) (data : List UInt8) :
    ∃ d', (writeFile t path data).1.get? k = some (.file d') := by
  rcases writeFile_cases t path data with hw | ⟨e, hw⟩ <;> rw [hw]
  · rw [GoMap.get?_set]
    split_ifs
    · exact ⟨data, rfl⟩
    · exact ⟨d, h⟩
  · exact ⟨d, h⟩

/-- **`MkdirAll` keeps every node that is there.** -/
theorem get?_mkdirAllStack_of_some {t : FileTree} {rooted : Bool} {k : PathKey} {n : Node}
    (h : t.get? k = some n) : ∀ S, (mkdirAllStack t rooted S).1.get? k = some n
  | [] => h
  | e :: S => by
    have ih : (mkdirAllStack t rooted S).1.get? k = some n := get?_mkdirAllStack_of_some h S
    unfold mkdirAllStack
    split
    · exact h
    · exact h
    · rename_i hnone
      split
      · next t' hrec =>
        rw [hrec] at ih
        rw [GoMap.get?_set, if_neg fun heq => by rw [← heq, hnone] at h; cases h]
        exact ih
      · next t' err hrec =>
        rw [hrec] at ih
        exact ih

/-- **`MkdirAll` adds only directories**, each at a key of the path or above it. -/
theorem get?_mkdirAllStack_eq {t : FileTree} {rooted : Bool} {k : PathKey} {n : Node} :
    ∀ S, (mkdirAllStack t rooted S).1.get? k = some n →
      t.get? k = some n ∨ (n = .dir ∧ k.rooted = rooted ∧ k.stack.length ≤ S.length)
  | [], h => .inl h
  | e :: S, h => by
    have ih : (mkdirAllStack t rooted S).1.get? k = some n →
        t.get? k = some n ∨ (n = .dir ∧ k.rooted = rooted ∧ k.stack.length ≤ S.length) :=
      get?_mkdirAllStack_eq S
    have above : ∀ {n'}, (t.get? k = some n' ∨ (n' = .dir ∧ k.rooted = rooted ∧
        k.stack.length ≤ S.length)) → t.get? k = some n' ∨
        (n' = .dir ∧ k.rooted = rooted ∧ k.stack.length ≤ (e :: S).length) := fun h' => by
      rcases h' with h' | ⟨hn, hr, hl⟩
      · exact .inl h'
      · exact .inr ⟨hn, hr, by simp only [List.length_cons]; omega⟩
    unfold mkdirAllStack at h
    split at h
    · exact .inl h
    · exact .inl h
    · split at h
      · next t' hrec =>
        rw [hrec] at ih
        rw [GoMap.get?_set] at h
        split_ifs at h with heq
        · cases h
          exact .inr ⟨rfl, by rw [← heq], by rw [← heq]⟩
        · exact above (ih h)
      · next t' err hrec =>
        rw [hrec] at ih
        exact above (ih h)

theorem get?_mkdirAll_of_some {t : FileTree} {k : PathKey} {n : Node} (h : t.get? k = some n)
    (path : String) : (mkdirAll t path).1.get? k = some n :=
  get?_mkdirAllStack_of_some h _

/-- **`MkdirAll` never writes a file**: the files after it are the files before it. -/
theorem get?_mkdirAll_file {t : FileTree} {path : String} {k : PathKey} {data : List UInt8} :
    (mkdirAll t path).1.get? k = some (.file data) ↔ t.get? k = some (.file data) :=
  ⟨fun h => ((get?_mkdirAllStack_eq _ h).resolve_right fun ⟨hn, _⟩ => by cases hn),
    fun h => get?_mkdirAll_of_some h path⟩

/-- **When `MkdirAll` succeeds the path is a directory.** -/
theorem nodeAt_mkdirAllStack {t : FileTree} {rooted : Bool} :
    ∀ S, (mkdirAllStack t rooted S).2 = .ok () →
      nodeAt (mkdirAllStack t rooted S).1 ⟨rooted, S⟩ = some .dir
  | [], _ => rfl
  | e :: S, h => by
    unfold mkdirAllStack at h ⊢
    cases hget : t.get? ⟨rooted, e :: S⟩ with
    | some n =>
      cases n with
      | dir => simp [hget, nodeAt]
      | file d => simp [hget] at h
    | none =>
      simp only [hget] at h ⊢
      rcases hrec : mkdirAllStack t rooted S with ⟨t', _ | _⟩
      · simp [hrec] at h
      · simp [nodeAt]

theorem nodeAt_mkdirAll {t : FileTree} {path : String} (h : (mkdirAll t path).2 = .ok ()) :
    nodeAt (mkdirAll t path).1 (pathKey path) = some .dir :=
  nodeAt_mkdirAllStack _ h

/-- A directory's entries are the nodes one element below it. -/
theorem mem_children {t : FileTree} {k : PathKey} {name : String} {n : Node} :
    (name, n) ∈ children t k ↔ t.get? ⟨k.rooted, name.data :: k.stack⟩ = some n := by
  rw [← GoMap.mem_entries_iff, children, List.mem_filterMap]
  constructor
  · rintro ⟨⟨⟨r, S⟩, n'⟩, hmem, hf⟩
    rcases S with _ | ⟨e, S⟩
    · cases hf
    · simp only at hf
      split_ifs at hf with hkey
      cases hf
      obtain ⟨rfl, rfl⟩ := hkey
      exact hmem
  · intro hmem
    exact ⟨_, hmem, by simp⟩

/-- The entries of a directory have distinct names. -/
theorem nodup_children_names (t : FileTree) (k : PathKey) :
    ((children t k).map Prod.fst).Nodup := by
  have hmap : (children t k).map Prod.fst = (t.entries.map Prod.fst).filterMap fun k' =>
      match k'.stack with
      | e :: S => if k'.rooted = k.rooted ∧ S = k.stack then some (String.mk e) else none
      | [] => none := by
    rw [children, List.filterMap_map, List.map_filterMap]
    congr 1
    funext kn
    rcases kn with ⟨⟨r, _ | ⟨e, S⟩⟩, n⟩
    · rfl
    · simp only [Function.comp]
      split_ifs <;> rfl
  rw [hmap]
  refine t.nodup.filterMap fun k₁ k₂ b h₁ h₂ => ?_
  rcases k₁ with ⟨r₁, _ | ⟨e₁, S₁⟩⟩
  · simp at h₁
  rcases k₂ with ⟨r₂, _ | ⟨e₂, S₂⟩⟩
  · simp at h₂
  simp only [Option.mem_def, Option.ite_none_right_eq_some, Option.some.injEq] at h₁ h₂
  obtain ⟨⟨rfl, rfl⟩, rfl⟩ := h₁
  obtain ⟨⟨rfl, rfl⟩, he⟩ := h₂
  cases he
  rfl

/-- The entries `ReadDir` gives are the directory's children, sorted. -/
theorem readDir_perm {t : FileTree} {path : String} {entries : List (String × Node)}
    (h : readDir t path = .ok entries) : entries.Perm (children t (pathKey path)) := by
  unfold readDir at h
  dsimp only at h
  split at h <;> cases h
  exact List.perm_insertionSort _ _

/-! ## Trees a disk can hold -/

/-- A tree a disk can hold: every node's key is a stack `Clean` can end with, other than the
root, and the node sits in a directory. -/
def Consistent (t : FileTree) : Prop :=
  ∀ k n, t.get? k = some n →
    NormalStack k.rooted k.stack ∧ k.stack ≠ [] ∧ nodeAt t k.parent = some .dir

theorem parent_ne {k : PathKey} (h : k.stack ≠ []) : k.parent ≠ k := by
  rcases k with ⟨r, _ | ⟨e, S⟩⟩
  · exact absurd rfl h
  · intro heq
    have := congrArg (fun k : PathKey => k.stack.length) heq
    simp [PathKey.parent] at this

theorem consistent_empty : Consistent GoMap.empty := fun _ _ h => by cases h

/-- Setting a node that no node sits in keeps a tree consistent, when the node sits in a
directory. -/
theorem consistent_set {t : FileTree} (ht : Consistent t) {k : PathKey}
    (hk : NormalStack k.rooted k.stack) (hne : k.stack ≠ []) (hnotdir : nodeAt t k ≠ some .dir)
    (hparent : nodeAt t k.parent = some .dir) (n : Node) : Consistent (t.set k n) := by
  intro k' n' h'
  rw [GoMap.get?_set] at h'
  split_ifs at h' with heq
  · subst heq
    exact ⟨hk, hne, by rw [nodeAt_set_of_ne t (parent_ne hne).symm]; exact hparent⟩
  · obtain ⟨hk', hne', hparent'⟩ := ht k' n' h'
    refine ⟨hk', hne', ?_⟩
    by_cases hp : k = k'.parent
    · exact absurd (hp ▸ hparent') hnotdir
    · rw [nodeAt_set_of_ne t hp]
      exact hparent'

theorem normalStack_pathKey (path : String) :
    NormalStack (pathKey path).rooted (pathKey path).stack :=
  normalStack_cleanStack path

/-- **`WriteFile` keeps a tree consistent.** -/
theorem consistent_writeFile {t : FileTree} (ht : Consistent t) (path : String)
    (data : List UInt8) : Consistent (writeFile t path data).1 := by
  have hk := normalStack_pathKey path
  unfold writeFile
  dsimp only
  split
  · exact ht
  · rename_i old hfile
    have hne : (pathKey path).stack ≠ [] := fun h => by simp [nodeAt, h] at hfile
    exact consistent_set ht hk hne (by simp [hfile])
      (ht _ _ ((nodeAt_of_ne_nil hne).symm.trans hfile)).2.2 _
  · rename_i hnone
    have hne : (pathKey path).stack ≠ [] := fun h => by simp [nodeAt, h] at hnone
    split_ifs with hparent
    · exact consistent_set ht hk hne (by simp [hnone]) hparent _
    · exact ht

/-- **`MkdirAll` keeps a tree consistent.** -/
theorem consistent_mkdirAllStack {t : FileTree} (ht : Consistent t) {rooted : Bool} :
    ∀ S, NormalStack rooted S → Consistent (mkdirAllStack t rooted S).1
  | [], _ => ht
  | e :: S, hS => by
    have ih := consistent_mkdirAllStack ht S hS.tail
    have hok : (mkdirAllStack t rooted S).2 = .ok () →
        nodeAt (mkdirAllStack t rooted S).1 ⟨rooted, S⟩ = some .dir := nodeAt_mkdirAllStack S
    have hfresh : t.get? ⟨rooted, e :: S⟩ = none →
        (mkdirAllStack t rooted S).1.get? ⟨rooted, e :: S⟩ = none := fun hnone => by
      cases hget : (mkdirAllStack t rooted S).1.get? ⟨rooted, e :: S⟩ with
      | none => rfl
      | some n =>
        rcases get?_mkdirAllStack_eq S hget with h | ⟨-, -, hl⟩
        · simp [hnone] at h
        · simp at hl
    unfold mkdirAllStack
    cases hget : t.get? ⟨rooted, e :: S⟩ with
    | some n => cases n <;> exact ht
    | none =>
      simp only
      rcases hrec : mkdirAllStack t rooted S with ⟨t', _ | _⟩
      · rw [hrec] at ih
        exact ih
      · rw [hrec] at ih hok hfresh
        exact consistent_set (k := ⟨rooted, e :: S⟩) ih hS (List.cons_ne_nil _ _)
          (by rw [nodeAt_of_ne_nil (List.cons_ne_nil _ _), hfresh hget]; simp)
          (hok rfl) _

theorem consistent_mkdirAll {t : FileTree} (ht : Consistent t) (path : String) :
    Consistent (mkdirAll t path).1 :=
  consistent_mkdirAllStack ht _ (normalStack_pathKey path)

end Os

end Picoclaw.Go
