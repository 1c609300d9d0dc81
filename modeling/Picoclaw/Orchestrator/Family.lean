import Picoclaw.Go.Map
import Picoclaw.Go.Runtime

/-!
# The family store (`pkg/orchestrator/family`)

`FamilyStore` keeps chores and shared lists in two Go maps. A chore moves through three
statuses: `CompleteChore`, by the assignee, takes a pending chore to completed and stamps
`CompletedAt`; `VerifyChore`, by the assigner, takes a completed chore to verified and stamps
`VerifiedAt`, or, when not approved, back to pending and clears `CompletedAt`. A call that
writes draws its id from `uuid.New()` and its time from `time.Now()`; both are inputs of the
call here. The mutex only serialises the calls.

**The law** (`chores_wellFormed_of_run`): in every state reachable from `NewFamilyStore()`,
every chore's status is one of the three, the chore is pending exactly when `CompletedAt` is
nil, and verified exactly when `VerifiedAt` is set (`Chore.WellFormed`). Every call keeps this
(`apply_choresWellFormed`); `ValidFamilyStore` is the store carrying it as a field, and it runs
as the store does (`ValidFamilyStore.run_store`).
-/

namespace Picoclaw.Family

open Picoclaw.Go

/-- `StatusPending`. -/
def statusPending : String := "pending"
/-- `StatusCompleted`. -/
def statusCompleted : String := "completed"
/-- `StatusVerified`. -/
def statusVerified : String := "verified"

/-- `family.Chore`; a `*time.Time` is an `Option Time`. -/
structure Chore where
  id : String
  assigner : String
  assignee : String
  title : String
  description : String
  status : String
  createdAt : Time
  completedAt : Option Time := none
  verifiedAt : Option Time := none
  deriving DecidableEq, Repr

/-- `family.ListItem`. -/
structure ListItem where
  id : String
  content : String
  addedBy : String
  completed : Bool
  completedBy : String := ""
  completedAt : Option Time := none
  createdAt : Time
  deriving DecidableEq, Repr

/-- `family.List`, renamed: `List` is Lean's list type. -/
structure FamilyList where
  id : String
  name : String
  createdBy : String
  createdAt : Time
  items : List ListItem
  deriving DecidableEq, Repr

/-- `family.FamilyStore`. -/
structure FamilyStore where
  chores : GoMap String Chore
  lists : GoMap String FamilyList

/-- `NewFamilyStore()`. -/
def newFamilyStore : FamilyStore := ⟨GoMap.empty, GoMap.empty⟩

namespace FamilyStore

/-! ## Chores -/

/-- `AssignChore`, with the id `uuid.New()` draws and the reading `time.Now()` gives. -/
def assignChore (s : FamilyStore) (id : String) (now : Time)
    (assigner assignee title description : String) : FamilyStore × Except String String :=
  let c : Chore :=
    { id := id, assigner := assigner, assignee := assignee, title := title,
      description := description, status := statusPending, createdAt := now }
  ({ s with chores := s.chores.set id c }, .ok id)

/-- `ListChores`: the chores `user` assigned or was assigned, in the map's order. -/
def listChores (s : FamilyStore) (user : String) : Except String (List Chore) :=
  .ok (s.chores.values.filter fun c => c.assignee = user || c.assigner = user)

/-- The checks `CompleteChore` and `VerifyChore` share: the chore exists, `user` holds the
role `role` reads, and the chore has status `required`. -/
def lookupChore (s : FamilyStore) (role : Chore → String) (unauthorized required notRequired : String)
    (user choreID : String) : Except String Chore :=
  match s.chores.get? choreID with
  | none => .error "chore not found"
  | some c =>
    if role c ≠ user then .error unauthorized
    else if c.status ≠ required then .error notRequired
    else .ok c

/-- Write `f` into chore `choreID` once `check` has passed; a failed check changes nothing. -/
def updateChore (s : FamilyStore) (check : Except String Chore) (choreID : String)
    (f : Chore → Chore) : FamilyStore × Except String Unit :=
  match check with
  | .error e => (s, .error e)
  | .ok _ => ({ s with chores := s.chores.modify choreID f }, .ok ())

/-- `CompleteChore` at reading `now`. -/
def completeChore (s : FamilyStore) (now : Time) (user choreID : String) :
    FamilyStore × Except String Unit :=
  s.updateChore (s.lookupChore Chore.assignee "unauthorized to complete this chore" statusPending
    "chore is not pending" user choreID) choreID
    fun c => { c with status := statusCompleted, completedAt := some now }

/-- `VerifyChore` at reading `now`. -/
def verifyChore (s : FamilyStore) (now : Time) (user choreID : String) (approved : Bool) :
    FamilyStore × Except String Unit :=
  s.updateChore (s.lookupChore Chore.assigner "unauthorized to verify this chore" statusCompleted
    "chore is not completed yet" user choreID) choreID
    fun c => if approved then { c with status := statusVerified, verifiedAt := some now }
      else { c with status := statusPending, completedAt := none }

/-! ## Lists -/

/-- `CreateList`, with the id `uuid.New()` draws. The nil-map check of the source is for a
zero `FamilyStore`; a Go map that is nil reads as empty, as `GoMap.empty` does. -/
def createList (s : FamilyStore) (id : String) (now : Time) (user name : String) :
    FamilyStore × Except String String :=
  let l : FamilyList := { id := id, name := name, createdBy := user, createdAt := now, items := [] }
  ({ s with lists := s.lists.set id l }, .ok id)

/-- `GetLists`: every list, whoever asks. -/
def getLists (s : FamilyStore) (_user : String) : Except String (List FamilyList) :=
  .ok s.lists.values

/-- `AddListItem`, with the item id `uuid.New()` draws once the list is found. -/
def addListItem (s : FamilyStore) (itemID : String) (now : Time) (user listID content : String) :
    FamilyStore × Except String String :=
  match s.lists.get? listID with
  | none => (s, .error "list not found")
  | some _ =>
    let item : ListItem :=
      { id := itemID, content := content, addedBy := user, completed := false, createdAt := now }
    ({ s with lists := s.lists.modify listID fun l => { l with items := l.items ++ [item] } },
      .ok itemID)

/-- The item `UpdateListItem` writes: `Completed`, then the stamp and the user, or neither. -/
def ListItem.setCompleted (item : ListItem) (now : Time) (user : String) (completed : Bool) :
    ListItem :=
  let item := { item with completed := completed }
  if completed then { item with completedAt := some now, completedBy := user }
  else { item with completedAt := none, completedBy := "" }

/-- The loop of `UpdateListItem`: the first item with id `itemID` is written; none when no item
has that id. -/
def setItemCompleted (now : Time) (user itemID : String) (completed : Bool) :
    List ListItem → Option (List ListItem)
  | [] => none
  | item :: rest =>
    if item.id = itemID then some (ListItem.setCompleted item now user completed :: rest)
    else (setItemCompleted now user itemID completed rest).map (item :: ·)

/-- `UpdateListItem` at reading `now`. -/
def updateListItem (s : FamilyStore) (now : Time) (user listID itemID : String) (completed : Bool) :
    FamilyStore × Except String Unit :=
  match s.lists.get? listID with
  | none => (s, .error "list not found")
  | some l =>
    match setItemCompleted now user itemID completed l.items with
    | none => (s, .error "item not found")
    | some items =>
      ({ s with lists := s.lists.modify listID fun l => { l with items := items } }, .ok ())

/-- `DeleteList`: a missing list is already gone; only its creator may delete it. -/
def deleteList (s : FamilyStore) (user listID : String) : FamilyStore × Except String Unit :=
  match s.lists.get? listID with
  | none => (s, .ok ())
  | some l =>
    if l.createdBy ≠ user then (s, .error "unauthorized to delete this list")
    else ({ s with lists := s.lists.delete listID }, .ok ())

/-! ## Calls and runs -/

/-- A successful check found the chore, with the role and the status it asks for. -/
theorem lookupChore_ok {s : FamilyStore} {role : Chore → String}
    {unauthorized required notRequired user choreID : String} {c : Chore}
    (h : s.lookupChore role unauthorized required notRequired user choreID = .ok c) :
    s.chores.get? choreID = some c ∧ role c = user ∧ c.status = required := by
  unfold lookupChore at h
  split at h
  · cases h
  · rename_i c' hc'
    split_ifs at h with hrole hst
    cases h
    exact ⟨hc', not_not.mp hrole, not_not.mp hst⟩

/-! ### Frame lemmas: the list calls leave the chores alone -/

@[simp] theorem createList_chores (s : FamilyStore) (id : String) (now : Time) (user name : String) :
    (s.createList id now user name).1.chores = s.chores := rfl

@[simp] theorem addListItem_chores (s : FamilyStore) (itemID : String) (now : Time)
    (user listID content : String) :
    (s.addListItem itemID now user listID content).1.chores = s.chores := by
  unfold addListItem; split <;> rfl

@[simp] theorem updateListItem_chores (s : FamilyStore) (now : Time) (user listID itemID : String)
    (completed : Bool) : (s.updateListItem now user listID itemID completed).1.chores = s.chores := by
  unfold updateListItem; split
  · rfl
  · split <;> rfl

@[simp] theorem deleteList_chores (s : FamilyStore) (user listID : String) :
    (s.deleteList user listID).1.chores = s.chores := by
  unfold deleteList; split
  · rfl
  · split <;> rfl

/-! ### Frame lemmas: the chore calls leave the lists alone -/

@[simp] theorem assignChore_lists (s : FamilyStore) (id : String) (now : Time)
    (assigner assignee title description : String) :
    (s.assignChore id now assigner assignee title description).1.lists = s.lists := rfl

theorem updateChore_lists (s : FamilyStore) (check : Except String Chore) (choreID : String)
    (f : Chore → Chore) : (s.updateChore check choreID f).1.lists = s.lists := by
  cases check <;> rfl

@[simp] theorem completeChore_lists (s : FamilyStore) (now : Time) (user choreID : String) :
    (s.completeChore now user choreID).1.lists = s.lists :=
  updateChore_lists _ _ _ _

@[simp] theorem verifyChore_lists (s : FamilyStore) (now : Time) (user choreID : String)
    (approved : Bool) : (s.verifyChore now user choreID approved).1.lists = s.lists :=
  updateChore_lists _ _ _ _

/-- What a checked write does to the chore stored under `k`. -/
theorem updateChore_get? (s : FamilyStore) (check : Except String Chore) (choreID k : String)
    (f : Chore → Chore) :
    (s.updateChore check choreID f).1.chores.get? k =
      match check with
      | .error _ => s.chores.get? k
      | .ok _ => if choreID = k then (s.chores.get? k).map f else s.chores.get? k := by
  cases check <;> simp [updateChore]

/-! ### A failed call changes nothing -/

theorem updateChore_of_error {s : FamilyStore} {check : Except String Chore} {choreID : String}
    {f : Chore → Chore} {e : String} (h : (s.updateChore check choreID f).2 = .error e) :
    (s.updateChore check choreID f).1 = s := by
  cases check
  · rfl
  · cases h

/-- `AddListItem` fails only on a missing list, before it writes. -/
theorem addListItem_of_error {s : FamilyStore} {itemID : String} {now : Time}
    {user listID content e : String} (h : (s.addListItem itemID now user listID content).2 = .error e) :
    (s.addListItem itemID now user listID content).1 = s := by
  unfold addListItem at h ⊢
  split at h
  · rfl
  · cases h

/-- `UpdateListItem` fails on a missing list or item, before it writes. -/
theorem updateListItem_of_error {s : FamilyStore} {now : Time} {user listID itemID e : String}
    {completed : Bool} (h : (s.updateListItem now user listID itemID completed).2 = .error e) :
    (s.updateListItem now user listID itemID completed).1 = s := by
  unfold updateListItem at h ⊢
  split at h
  · rfl
  · split at h
    · rfl
    · cases h

/-- `DeleteList` fails only for a user other than the creator, before it deletes. -/
theorem deleteList_of_error {s : FamilyStore} {user listID e : String}
    (h : (s.deleteList user listID).2 = .error e) : (s.deleteList user listID).1 = s := by
  unfold deleteList at h ⊢
  split at h
  · cases h
  · split_ifs at h ⊢
    rfl

end FamilyStore

/-- A call that can change the store, with the ids and the readings it draws. -/
inductive Call where
  | assignChore (id : String) (now : Time) (assigner assignee title description : String)
  | completeChore (now : Time) (user choreID : String)
  | verifyChore (now : Time) (user choreID : String) (approved : Bool)
  | createList (id : String) (now : Time) (user name : String)
  | addListItem (itemID : String) (now : Time) (user listID content : String)
  | updateListItem (now : Time) (user listID itemID : String) (completed : Bool)
  | deleteList (user listID : String)

namespace FamilyStore

/-- The state after one call. -/
def apply (s : FamilyStore) : Call → FamilyStore
  | .assignChore id now assigner assignee title description =>
    (s.assignChore id now assigner assignee title description).1
  | .completeChore now user choreID => (s.completeChore now user choreID).1
  | .verifyChore now user choreID approved => (s.verifyChore now user choreID approved).1
  | .createList id now user name => (s.createList id now user name).1
  | .addListItem itemID now user listID content => (s.addListItem itemID now user listID content).1
  | .updateListItem now user listID itemID completed =>
    (s.updateListItem now user listID itemID completed).1
  | .deleteList user listID => (s.deleteList user listID).1

/-- The state after calls in order. -/
def run (s : FamilyStore) (calls : List Call) : FamilyStore := calls.foldl apply s

end FamilyStore

/-! ## The status invariant -/

/-- What every stored chore satisfies: a known status, pending exactly when `CompletedAt` is
nil, verified exactly when `VerifiedAt` is set. -/
structure Chore.WellFormed (c : Chore) : Prop where
  status_mem : c.status = statusPending ∨ c.status = statusCompleted ∨ c.status = statusVerified
  pending_iff : c.status = statusPending ↔ c.completedAt = none
  verified_iff : c.status = statusVerified ↔ c.verifiedAt ≠ none

namespace Chore.WellFormed

variable {c : Chore}

/-- A pending chore has never been verified. -/
theorem verifiedAt_of_pending (hc : c.WellFormed) (hp : c.status = statusPending) :
    c.verifiedAt = none := by
  by_contra hv
  have := hc.verified_iff.mpr hv
  simp [hp, statusPending, statusVerified] at this

/-- A completed chore has been completed and not verified. -/
theorem stamps_of_completed (hc : c.WellFormed) (hp : c.status = statusCompleted) :
    c.completedAt ≠ none ∧ c.verifiedAt = none := by
  refine ⟨fun h => ?_, by_contra fun hv => ?_⟩
  · have := hc.pending_iff.mpr h
    simp [hp, statusPending, statusCompleted] at this
  · have := hc.verified_iff.mpr hv
    simp [hp, statusCompleted, statusVerified] at this

theorem complete (hc : c.WellFormed) (hp : c.status = statusPending) (now : Time) :
    Chore.WellFormed { c with status := statusCompleted, completedAt := some now } where
  status_mem := .inr (.inl rfl)
  pending_iff := by simp [statusCompleted, statusPending]
  verified_iff := by simp [hc.verifiedAt_of_pending hp, statusCompleted, statusVerified]

theorem approve (hc : c.WellFormed) (hp : c.status = statusCompleted) (now : Time) :
    Chore.WellFormed { c with status := statusVerified, verifiedAt := some now } where
  status_mem := .inr (.inr rfl)
  pending_iff := by simp [(hc.stamps_of_completed hp).1, statusVerified, statusPending]
  verified_iff := by simp

theorem reject (hc : c.WellFormed) (hp : c.status = statusCompleted) :
    Chore.WellFormed { c with status := statusPending, completedAt := none } where
  status_mem := .inl rfl
  pending_iff := by simp
  verified_iff := by simp [(hc.stamps_of_completed hp).2, statusPending, statusVerified]

end Chore.WellFormed

namespace FamilyStore

/-- Every stored chore is well formed. -/
def ChoresWellFormed (s : FamilyStore) : Prop := ∀ id c, s.chores.get? id = some c → c.WellFormed

/-- A checked write keeps the invariant when it keeps it for every chore of the required
status. -/
theorem updateChore_choresWellFormed {s : FamilyStore} (hs : s.ChoresWellFormed)
    {role : Chore → String} {unauthorized required notRequired user choreID : String}
    {f : Chore → Chore} (hf : ∀ c, c.WellFormed → c.status = required → (f c).WellFormed) :
    (s.updateChore (s.lookupChore role unauthorized required notRequired user choreID) choreID
      f).1.ChoresWellFormed := by
  cases hl : s.lookupChore role unauthorized required notRequired user choreID with
  | error e => exact hs
  | ok c =>
    obtain ⟨hget, -, hst⟩ := lookupChore_ok hl
    intro k c' hk
    simp only [updateChore, GoMap.get?_modify] at hk
    split_ifs at hk with hkey
    · subst hkey
      rw [hget, Option.map_some', Option.some.injEq] at hk
      exact hk ▸ hf c (hs _ _ hget) hst
    · exact hs k c' hk

/-- **Every call keeps the invariant.** -/
theorem apply_choresWellFormed {s : FamilyStore} (hs : s.ChoresWellFormed) :
    ∀ call, (s.apply call).ChoresWellFormed
  | .assignChore id now assigner assignee title description => by
    intro k c hk
    simp only [apply, assignChore, GoMap.get?_set] at hk
    split_ifs at hk
    · cases hk
      exact ⟨.inl rfl, by simp, by simp [statusPending, statusVerified]⟩
    · exact hs k c hk
  | .completeChore now user choreID =>
    updateChore_choresWellFormed hs fun _ hc hp => hc.complete hp now
  | .verifyChore now user choreID approved =>
    updateChore_choresWellFormed hs fun _ hc hp => by
      cases approved
      · exact hc.reject hp
      · exact hc.approve hp now
  | .createList .. | .addListItem .. | .updateListItem .. | .deleteList .. => by
    intro k c hk
    simp only [apply, createList_chores, addListItem_chores, updateListItem_chores,
      deleteList_chores] at hk
    exact hs k c hk

end FamilyStore

/-- A family store with its invariant as a field. -/
structure ValidFamilyStore where
  store : FamilyStore
  choresWellFormed : store.ChoresWellFormed

namespace ValidFamilyStore

/-- `NewFamilyStore()`: no chores. -/
def new : ValidFamilyStore := ⟨newFamilyStore, fun _ _ h => by simp [newFamilyStore] at h⟩

/-- One call; the invariant comes from `apply_choresWellFormed`. -/
def apply (v : ValidFamilyStore) (call : Call) : ValidFamilyStore :=
  ⟨v.store.apply call, FamilyStore.apply_choresWellFormed v.choresWellFormed call⟩

/-- Calls in order. -/
def run (v : ValidFamilyStore) (calls : List Call) : ValidFamilyStore := calls.foldl apply v

/-- The checked store runs as the store does. -/
theorem run_store (v : ValidFamilyStore) (calls : List Call) :
    (v.run calls).store = v.store.run calls := by
  induction calls generalizing v with
  | nil => rfl
  | cons call calls ih => exact ih (v.apply call)

end ValidFamilyStore

/-- **The status invariant over every run** from `NewFamilyStore()`. -/
theorem chores_wellFormed_of_run (calls : List Call) :
    ∀ c ∈ (newFamilyStore.run calls).chores.values, c.WellFormed := by
  intro c hc
  obtain ⟨k, hk⟩ := (GoMap.mem_values_iff _).mp hc
  have inv := (ValidFamilyStore.new.run calls).choresWellFormed
  rw [ValidFamilyStore.run_store] at inv
  exact inv k c hk

/-- A chore assigned by mom and completed by the kid. -/
theorem completed_chore_wellFormed :
    Chore.WellFormed
      { id := "c1", assigner := "mom", assignee := "kid", title := "Dishes", description := "",
        status := statusCompleted, createdAt := ⟨1⟩, completedAt := some ⟨2⟩ } :=
  chores_wellFormed_of_run [.assignChore "c1" ⟨1⟩ "mom" "kid" "Dishes" "",
    .completeChore ⟨2⟩ "kid" "c1"] _ (by decide)

/-! ## How a chore moves -/

namespace FamilyStore

@[simp] theorem run_nil (s : FamilyStore) : s.run [] = s := rfl

@[simp] theorem run_append_single (s : FamilyStore) (calls : List Call) (c : Call) :
    s.run (calls ++ [c]) = (s.run calls).apply c := List.foldl_append _ _ _ _

end FamilyStore

/-- The id an `AssignChore` call draws. -/
def Call.assignedId? : Call → Option String
  | .assignChore id .. => some id
  | _ => none

/-- Every `AssignChore` of a run draws an id no earlier one drew, as `uuid.New()` does. -/
def FreshAssigns (calls : List Call) : Prop := (calls.filterMap Call.assignedId?).Nodup

instance : DecidablePred FreshAssigns := fun calls =>
  inferInstanceAs (Decidable (calls.filterMap Call.assignedId?).Nodup)

/-- In a fresh run, the id the last call draws was drawn by no earlier call. -/
theorem FreshAssigns.not_mem_last {calls : List Call} {c : Call} (h : FreshAssigns (calls ++ [c]))
    {id : String} (hid : c.assignedId? = some id) : id ∉ calls.filterMap Call.assignedId? := by
  unfold FreshAssigns at h
  rw [List.filterMap_append, List.filterMap_cons_some hid, List.filterMap_nil] at h
  exact fun hmem => List.disjoint_of_nodup_append h hmem (List.mem_singleton_self id)

/-- A call other than an `AssignChore` of `k` adds no chore under `k`. -/
theorem get?_apply_chores_eq_none {s : FamilyStore} {call : Call} {k : String}
    (h : s.chores.get? k = none) (hk : call.assignedId? ≠ some k) :
    (s.apply call).chores.get? k = none := by
  cases call with
  | assignChore id =>
    have : id ≠ k := fun e => hk (congrArg some e)
    simp [FamilyStore.apply, FamilyStore.assignChore, this, h]
  | completeChore | verifyChore =>
    simp only [FamilyStore.apply, FamilyStore.completeChore, FamilyStore.verifyChore,
      FamilyStore.updateChore_get?]
    split <;> simp [h]
  | createList | addListItem | updateListItem | deleteList =>
    simpa [FamilyStore.apply] using h

/-- A chore is stored only under an id some `AssignChore` of the run drew. -/
theorem get?_run_eq_none {calls : List Call} {k : String}
    (hk : k ∉ calls.filterMap Call.assignedId?) : (newFamilyStore.run calls).chores.get? k = none := by
  induction calls using List.reverseRecOn with
  | nil => rfl
  | append_singleton calls c ih =>
    rw [List.filterMap_append, List.mem_append, not_or] at hk
    rw [FamilyStore.run_append_single]
    refine get?_apply_chores_eq_none (ih hk.1) fun hc => hk.2 ?_
    simp [hc]

/-- The three edges a chore moves along. -/
inductive Edge where
  | complete | approve | reject
  deriving DecidableEq, Repr

/-- The status an edge leaves. -/
def Edge.source : Edge → String
  | .complete => statusPending
  | .approve | .reject => statusCompleted

/-- The status an edge reaches. -/
def Edge.target : Edge → String
  | .complete => statusCompleted
  | .approve => statusVerified
  | .reject => statusPending

/-- The call that moves chore `choreID` along an edge, made by the user the edge asks for:
the assignee completes, the assigner approves or rejects. -/
def Edge.IsCall (call : Call) (choreID : String) (old : Chore) : Edge → Prop
  | .complete => ∃ now, call = .completeChore now old.assignee choreID
  | .approve => ∃ now, call = .verifyChore now old.assigner choreID true
  | .reject => ∃ now, call = .verifyChore now old.assigner choreID false

/-- `call` moves chore `choreID` from `old` to `new` along `e`. -/
structure Edge.Moves (e : Edge) (call : Call) (choreID : String) (old new : Chore) : Prop where
  source : old.status = e.source
  target : new.status = e.target
  isCall : e.IsCall call choreID old

/-- No edge leaves a verified chore. -/
theorem Edge.source_ne_verified (e : Edge) : statusVerified ≠ e.source := by
  cases e <;> decide

/-- An edge is fixed by the statuses it joins, so a move is along one edge only. -/
theorem Edge.existsUnique_of_moves {e : Edge} {call : Call} {choreID : String} {old new : Chore}
    (h : e.Moves call choreID old new) : ∃! e : Edge, e.Moves call choreID old new := by
  refine ⟨e, h, fun e' h' => ?_⟩
  have hs := h'.source.symm.trans h.source
  have ht := h'.target.symm.trans h.target
  revert hs ht
  cases e <;> cases e' <;> decide

/-- The fields of a chore that no call rewrites. -/
def Chore.SameTask (new old : Chore) : Prop :=
  new.assigner = old.assigner ∧ new.assignee = old.assignee ∧ new.title = old.title ∧
    new.description = old.description ∧ new.createdAt = old.createdAt

theorem Chore.SameTask.refl (c : Chore) : c.SameTask c := ⟨rfl, rfl, rfl, rfl, rfl⟩

/-- What one call does to the chore under `k`: it stays, or moves along exactly one edge. -/
def Chore.StepsTo (call : Call) (k : String) (old new : Chore) : Prop :=
  new.SameTask old ∧ (new = old ∨ ∃! e : Edge, e.Moves call k old new)

theorem Chore.StepsTo.refl (call : Call) (k : String) (c : Chore) : Chore.StepsTo call k c c :=
  ⟨.refl c, .inl rfl⟩

/-- The checked write of `CompleteChore` and `VerifyChore` on the chore under `k`: when the
check passes on `k`, the chore moves along the edge `hf` names. -/
theorem updateChore_stepsTo {s : FamilyStore} {role : Chore → String}
    {unauthorized required notRequired user choreID k : String} {f : Chore → Chore}
    {call : Call} {old : Chore} (hold : s.chores.get? k = some old)
    (hf : ∀ c, s.chores.get? choreID = some c → role c = user → c.status = required →
      (f c).SameTask c ∧ ∃ e : Edge, e.Moves call choreID c (f c)) :
    ∃ new, (s.updateChore (s.lookupChore role unauthorized required notRequired user choreID)
      choreID f).1.chores.get? k = some new ∧ Chore.StepsTo call k old new := by
  rw [FamilyStore.updateChore_get?]
  split
  · exact ⟨old, hold, .refl call k old⟩
  · rename_i c hl
    obtain ⟨hget, hrole, hst⟩ := FamilyStore.lookupChore_ok hl
    by_cases hk : choreID = k
    · subst hk
      obtain rfl : c = old := Option.some.inj (hget.symm.trans hold)
      obtain ⟨hsame, e, he⟩ := hf c hget hrole hst
      exact ⟨f c, by rw [if_pos rfl, hold]; rfl, hsame, .inr (Edge.existsUnique_of_moves he)⟩
    · exact ⟨old, by rw [if_neg hk, hold], .refl call k old⟩

/-- **One call on one chore.** A chore that exists before a call stays as it is or moves along
exactly one edge, and keeps its task; an `AssignChore` whose id is fresh touches no existing
chore. -/
theorem apply_stepsTo {s : FamilyStore} {call : Call} {k : String} {old : Chore}
    (hold : s.chores.get? k = some old)
    (hfresh : ∀ id, call.assignedId? = some id → s.chores.get? id = none) :
    ∃ new, (s.apply call).chores.get? k = some new ∧ Chore.StepsTo call k old new := by
  cases call with
  | assignChore id now assigner assignee title description =>
    have hk : id ≠ k := fun e => by rw [e] at hfresh; simp [hfresh k rfl] at hold
    exact ⟨old, by simp [FamilyStore.apply, FamilyStore.assignChore, hk, hold], .refl _ k old⟩
  | completeChore now user choreID =>
    exact updateChore_stepsTo hold fun c _ hrole hst =>
      ⟨⟨rfl, rfl, rfl, rfl, rfl⟩, .complete, hst, rfl, now, by rw [hrole]⟩
  | verifyChore now user choreID approved =>
    refine updateChore_stepsTo hold fun c _ hrole hst => ⟨?_, ?_⟩ <;> cases approved
    · exact ⟨rfl, rfl, rfl, rfl, rfl⟩
    · exact ⟨rfl, rfl, rfl, rfl, rfl⟩
    · exact ⟨.reject, hst, rfl, now, by rw [hrole]⟩
    · exact ⟨.approve, hst, rfl, now, by rw [hrole]⟩
  | createList | addListItem | updateListItem | deleteList =>
    exact ⟨old, by simpa [FamilyStore.apply] using hold, .refl _ k old⟩

/-- **Chores move only along the three edges.** In every run whose `AssignChore` calls draw
fresh ids, each call either leaves an existing chore as it is or moves it along exactly one
edge: pending to completed by its assignee, completed to verified or back to pending by its
assigner. A verified chore never changes again, and no call rewrites a chore's assigner,
assignee, title, description or creation time. -/
theorem chore_moves_along_edges (calls : List Call) (call : Call)
    (hfresh : FreshAssigns (calls ++ [call])) (k : String) (old : Chore)
    (hold : (newFamilyStore.run calls).chores.get? k = some old) :
    ∃ new, (newFamilyStore.run (calls ++ [call])).chores.get? k = some new ∧ new.SameTask old ∧
      (old.status = statusVerified → new = old) ∧
      (new = old ∨ ∃! e : Edge, e.Moves call k old new) := by
  rw [FamilyStore.run_append_single]
  obtain ⟨new, hnew, hsame, hmove⟩ :=
    apply_stepsTo hold fun id hid => get?_run_eq_none (hfresh.not_mem_last hid)
  refine ⟨new, hnew, hsame, fun hv => ?_, hmove⟩
  rcases hmove with rfl | ⟨e, he, -⟩
  · rfl
  · exact absurd (hv.symm.trans he.source) e.source_ne_verified

/-- The chore mom assigns the kid. -/
def dishes : Chore :=
  { id := "c1", assigner := "mom", assignee := "kid", title := "Dishes", description := "",
    status := statusPending, createdAt := ⟨1⟩ }

/-- The kid completes the chore mom assigned: it moves along the completion edge. -/
theorem kid_completes_dishes :
    ∃ new, (newFamilyStore.run ([.assignChore "c1" ⟨1⟩ "mom" "kid" "Dishes" ""] ++
        [.completeChore ⟨2⟩ "kid" "c1"])).chores.get? "c1" = some new ∧ new.SameTask dishes ∧
      (dishes.status = statusVerified → new = dishes) ∧
      (new = dishes ∨ ∃! e : Edge, e.Moves (.completeChore ⟨2⟩ "kid" "c1") "c1" dishes new) :=
  chore_moves_along_edges [.assignChore "c1" ⟨1⟩ "mom" "kid" "Dishes" ""]
    (.completeChore ⟨2⟩ "kid" "c1") (by decide) "c1" dishes rfl

/-! ## The list invariants -/

/-- An item's completion fields agree: `Completed` exactly when `CompletedAt` is set, and no
completer while it is not completed. -/
structure ListItem.WellFormed (item : ListItem) : Prop where
  completed_iff : item.completed = true ↔ item.completedAt ≠ none
  completedBy_of_not : item.completed = false → item.completedBy = ""

/-- What `AddListItem` writes of an item and `UpdateListItem` never changes. -/
structure ItemEntry where
  id : String
  content : String
  addedBy : String
  createdAt : Time
  deriving DecidableEq, Repr

/-- An item's entry. -/
def ListItem.entry (item : ListItem) : ItemEntry :=
  ⟨item.id, item.content, item.addedBy, item.createdAt⟩

namespace FamilyStore

theorem ListItem.setCompleted_wellFormed (item : ListItem) (now : Time) (user : String)
    (completed : Bool) : (ListItem.setCompleted item now user completed).WellFormed := by
  cases completed <;> exact ⟨by simp [ListItem.setCompleted], by simp [ListItem.setCompleted]⟩

/-- `UpdateListItem`'s loop rewrites completion fields only. -/
theorem setItemCompleted_entries {now : Time} {user itemID : String} {completed : Bool} :
    ∀ {items items' : List ListItem}, setItemCompleted now user itemID completed items = some items' →
      items'.map ListItem.entry = items.map ListItem.entry
  | [], _, h => by cases h
  | item :: rest, items', h => by
    unfold setItemCompleted at h
    split_ifs at h
    · cases h
      cases completed <;> rfl
    · obtain ⟨rest', h', rfl⟩ := Option.map_eq_some'.mp h
      simp [setItemCompleted_entries h']

/-- `UpdateListItem`'s loop keeps every item well formed. -/
theorem setItemCompleted_wellFormed {now : Time} {user itemID : String} {completed : Bool} :
    ∀ {items items' : List ListItem}, (∀ x ∈ items, x.WellFormed) →
      setItemCompleted now user itemID completed items = some items' → ∀ x ∈ items', x.WellFormed
  | [], _, _, h => by cases h
  | item :: rest, items', hw, h => by
    unfold setItemCompleted at h
    split_ifs at h
    · cases h
      intro x hx
      rcases List.mem_cons.mp hx with rfl | hx
      · exact ListItem.setCompleted_wellFormed item now user completed
      · exact hw x (List.mem_cons_of_mem _ hx)
    · obtain ⟨rest', h', rfl⟩ := Option.map_eq_some'.mp h
      intro x hx
      rcases List.mem_cons.mp hx with rfl | hx
      · exact hw x (List.mem_cons_self _ _)
      · exact setItemCompleted_wellFormed (fun y hy => hw y (List.mem_cons_of_mem _ hy)) h' x hx

end FamilyStore

/-- What one call does to the list stored under `L`, read off that entry alone. -/
def Call.listEffect (c : Call) (L : String) (entry : Option FamilyList) : Option FamilyList :=
  match c with
  | .createList id now user name =>
    if id = L then some { id := id, name := name, createdBy := user, createdAt := now, items := [] }
    else entry
  | .addListItem itemID now user listID content =>
    if listID = L then
      entry.map fun l => { l with items := l.items ++
        [{ id := itemID, content := content, addedBy := user, completed := false,
           createdAt := now }] }
    else entry
  | .updateListItem now user listID itemID completed =>
    if listID = L then
      entry.map fun l =>
        match FamilyStore.setItemCompleted now user itemID completed l.items with
        | some items => { l with items := items }
        | none => l
    else entry
  | .deleteList user listID =>
    if listID = L then entry.bind fun l => if l.createdBy ≠ user then some l else none
    else entry
  | _ => entry

/-- **What a call can do to a list**, said once: every list law below is read off it. -/
theorem get?_apply_lists (s : FamilyStore) (c : Call) (L : String) :
    (s.apply c).lists.get? L = c.listEffect L (s.lists.get? L) := by
  cases c with
  | createList id now user name =>
    simp [FamilyStore.apply, FamilyStore.createList, Call.listEffect]
  | addListItem itemID now user listID content =>
    simp only [FamilyStore.apply, FamilyStore.addListItem, Call.listEffect]
    split <;> by_cases hL : listID = L <;> simp_all
  | updateListItem now user listID itemID completed =>
    simp only [FamilyStore.apply, FamilyStore.updateListItem, Call.listEffect]
    repeat' split
    all_goals by_cases hL : listID = L <;> simp_all
  | deleteList user listID =>
    simp only [FamilyStore.apply, FamilyStore.deleteList, Call.listEffect]
    repeat' split
    all_goals by_cases hL : listID = L <;> simp_all
  | assignChore | completeChore | verifyChore => simp [FamilyStore.apply, Call.listEffect]

/-- The entry an `AddListItem` call on list `L` writes. -/
def Call.addedTo? (L : String) : Call → Option ItemEntry
  | .addListItem itemID now user listID content =>
    if listID = L then some ⟨itemID, content, user, now⟩ else none
  | _ => none

/-- **All a call can leave under `L`**, from the entry before: a new empty list, made by a
`CreateList` of `L`; the list before with one item appended, by an `AddListItem` on `L`; the
list before with the items `setItemCompleted` gives, by an `UpdateListItem` on `L`; or the list
before as it was, by a call that adds nothing to `L`. -/
theorem listEffect_cases {c : Call} {L : String} {entry : Option FamilyList} {l : FamilyList}
    (h : c.listEffect L entry = some l) :
    (∃ now user name, c = .createList L now user name ∧ l.items = []) ∨
    (∃ l₀ itemID now user content, entry = some l₀ ∧
      c = .addListItem itemID now user L content ∧
      l.items = l₀.items ++ [{ id := itemID, content := content, addedBy := user,
                               completed := false, createdAt := now }]) ∨
    (∃ l₀ now user itemID completed items, entry = some l₀ ∧
      c = .updateListItem now user L itemID completed ∧
      FamilyStore.setItemCompleted now user itemID completed l₀.items = some items ∧
      l.items = items) ∨
    (entry = some l ∧ c.addedTo? L = none) := by
  cases c with
  | createList id now user name =>
    simp only [Call.listEffect] at h
    split_ifs at h with hL
    · cases h
      exact .inl ⟨now, user, name, by rw [hL], rfl⟩
    · exact .inr (.inr (.inr ⟨h, rfl⟩))
  | addListItem itemID now user listID content =>
    simp only [Call.listEffect] at h
    split_ifs at h with hL
    · obtain ⟨l₀, h₀, rfl⟩ := Option.map_eq_some'.mp h
      exact .inr (.inl ⟨l₀, itemID, now, user, content, h₀, by rw [hL], rfl⟩)
    · exact .inr (.inr (.inr ⟨h, by simp [Call.addedTo?, hL]⟩))
  | updateListItem now user listID itemID completed =>
    simp only [Call.listEffect] at h
    split_ifs at h with hL
    · obtain ⟨l₀, h₀, rfl⟩ := Option.map_eq_some'.mp h
      split
      · exact .inr (.inr (.inl ⟨l₀, now, user, itemID, completed, _, h₀, by rw [hL], ‹_›, rfl⟩))
      · exact .inr (.inr (.inr ⟨h₀, rfl⟩))
    · exact .inr (.inr (.inr ⟨h, rfl⟩))
  | deleteList user listID =>
    simp only [Call.listEffect] at h
    split_ifs at h
    · obtain ⟨l₀, h₀, h'⟩ := Option.bind_eq_some.mp h
      split_ifs at h'
      cases h'
      exact .inr (.inr (.inr ⟨h₀, rfl⟩))
    · exact .inr (.inr (.inr ⟨h, rfl⟩))
  | assignChore | completeChore | verifyChore => exact .inr (.inr (.inr ⟨h, rfl⟩))

/-- A call keeps the items of the list it leaves under `L` well formed. -/
theorem listEffect_wellFormed {c : Call} {L : String} {entry : Option FamilyList} {l : FamilyList}
    (hw : ∀ l₀ ∈ entry, ∀ item ∈ l₀.items, item.WellFormed) (h : c.listEffect L entry = some l) :
    ∀ item ∈ l.items, item.WellFormed := by
  rcases listEffect_cases h with ⟨_, _, _, -, hl⟩ | ⟨l₀, _, _, _, _, h₀, -, hl⟩ |
    ⟨l₀, _, _, _, _, _, h₀, -, hs, hl⟩ | ⟨h₀, -⟩
  · simp [hl]
  · intro item hi
    rcases List.mem_append.mp (hl ▸ hi) with hi | hi
    · exact hw l₀ h₀ item hi
    · rw [List.mem_singleton.mp hi]
      exact ⟨by simp, fun _ => rfl⟩
  · exact hl ▸ FamilyStore.setItemCompleted_wellFormed (hw l₀ h₀) hs
  · exact hw l h₀

/-- List `l`, stored under `L` after `calls`, holds as its items' entries exactly what the
`AddListItem` calls on `L` after some `CreateList` of `L` added, in order. -/
def AddedSinceCreation (calls : List Call) (L : String) (l : FamilyList) : Prop :=
  ∃ pre now user name post, calls = pre ++ .createList L now user name :: post ∧
    l.items.map ListItem.entry = post.filterMap (Call.addedTo? L)

/-- A later call that adds nothing to `L` keeps the account. -/
theorem AddedSinceCreation.extend {calls : List Call} {L : String} {l : FamilyList} {c : Call}
    (h : AddedSinceCreation calls L l) (hc : c.addedTo? L = none) :
    AddedSinceCreation (calls ++ [c]) L l := by
  obtain ⟨pre, now, user, name, post, rfl, hitems⟩ := h
  exact ⟨pre, now, user, name, post ++ [c], by simp,
    by rw [hitems, List.filterMap_append, List.filterMap_cons_none hc, List.filterMap_nil,
      List.append_nil]⟩

/-- One call keeps the account of what was added to the list under `L`. -/
theorem listEffect_addedSinceCreation {calls : List Call} {c : Call} {L : String}
    {entry : Option FamilyList} {l : FamilyList}
    (hprev : ∀ l₀ ∈ entry, AddedSinceCreation calls L l₀) (h : c.listEffect L entry = some l) :
    AddedSinceCreation (calls ++ [c]) L l := by
  rcases listEffect_cases h with ⟨now, user, name, rfl, hl⟩ |
    ⟨l₀, itemID, now, user, content, h₀, rfl, hl⟩ | ⟨l₀, now, user, itemID, completed, items, h₀, rfl, hs, hl⟩ |
    ⟨h₀, hc⟩
  · exact ⟨calls, now, user, name, [], rfl, by rw [hl]; rfl⟩
  · obtain ⟨pre, now', user', name, post, rfl, hitems⟩ := hprev l₀ h₀
    refine ⟨pre, now', user', name, post ++ [.addListItem itemID now user L content], by simp, ?_⟩
    simp [hl, hitems, Call.addedTo?, ListItem.entry]
  · obtain ⟨pre, now', user', name, post, rfl, hitems⟩ := hprev l₀ h₀
    exact AddedSinceCreation.extend ⟨pre, now', user', name, post, rfl,
      by rw [hl, FamilyStore.setItemCompleted_entries hs, hitems]⟩ rfl
  · exact (hprev l h₀).extend hc

/-- A list leaves its key only by a `DeleteList` of its creator. -/
theorem listEffect_eq_none {c : Call} {L : String} {l : FamilyList}
    (h : c.listEffect L (some l) = none) : ∃ user, c = .deleteList user L ∧ user = l.createdBy := by
  cases c with
  | deleteList user listID =>
    simp only [Call.listEffect, Option.some_bind] at h
    split_ifs at h with hL hc
    · exact ⟨user, by rw [hL], (not_not.mp hc).symm⟩
  | createList | addListItem | updateListItem =>
    simp only [Call.listEffect] at h
    split_ifs at h <;> simp at h
  | assignChore | completeChore | verifyChore => cases h

/-- What every call keeps of the list it leaves under a key holds of every list a run from the
empty store leaves. -/
theorem run_lists_of_step {P : List Call → String → FamilyList → Prop}
    (hstep : ∀ calls c L entry l, (∀ l₀ ∈ entry, P calls L l₀) → c.listEffect L entry = some l →
      P (calls ++ [c]) L l) (calls : List Call) :
    ∀ L l, (newFamilyStore.run calls).lists.get? L = some l → P calls L l := by
  induction calls using List.reverseRecOn with
  | nil => intro L l h; simp [newFamilyStore] at h
  | append_singleton calls c ih =>
    intro L l h
    rw [FamilyStore.run_append_single, get?_apply_lists] at h
    exact hstep calls c L _ l (fun l₀ h₀ => ih L l₀ h₀) h

/-- **The list invariants over every run.** Every item of every list is completed exactly when
it has a completion time, and has no completer while it is not completed; each list's items
are, in order, exactly the items the `AddListItem` calls on it added since its `CreateList`,
none removed or reordered; and a list disappears only through a `DeleteList` by its creator. -/
theorem list_invariants (calls : List Call) :
    (∀ L l, (newFamilyStore.run calls).lists.get? L = some l →
      ∀ item ∈ l.items, item.WellFormed) ∧
    (∀ L l, (newFamilyStore.run calls).lists.get? L = some l →
      ∃ pre now user name post, calls = pre ++ .createList L now user name :: post ∧
        l.items.map ListItem.entry = post.filterMap (Call.addedTo? L)) ∧
    (∀ c L l, (newFamilyStore.run calls).lists.get? L = some l →
      (newFamilyStore.run (calls ++ [c])).lists.get? L = none →
      ∃ user, c = .deleteList user L ∧ user = l.createdBy) := by
  refine ⟨run_lists_of_step (fun _ _ _ _ _ => listEffect_wellFormed) calls,
    @run_lists_of_step AddedSinceCreation (fun _ _ _ _ _ => listEffect_addedSinceCreation) calls,
    fun c L l h h' => ?_⟩
  rw [FamilyStore.run_append_single, get?_apply_lists, h] at h'
  exact listEffect_eq_none h'

end Picoclaw.Family
