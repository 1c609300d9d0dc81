import Mathlib.Data.List.Perm.Basic
import Picoclaw.Go.Map
import Picoclaw.Go.Runtime

/-!
# The mailbox (`pkg/orchestrator/mailbox`, `MemoryStore`)

`MemoryStore` keeps messages in a Go map keyed by id. `SendMessage` stores a new message under
the id `uuid.New()` draws, `ListMessages(u)` copies the messages addressed to `u`, and
`ReadMessage(u, id)` marks message `id` read when it is addressed to `u`. The id and the
reading of `time.Now()` are inputs of the send call here.

The model iterates a map in insertion order; Go's order is unspecified, so every law about what
a call returns is stated up to order.

**The law** (`mailbox_refines_log`): as long as every send draws an id not already stored, the
store holds, up to order, the abstract log `Log.run calls` of every message sent, each with its
read flag. So `ListMessages(u)` returns, once each and unchanged but for `Read`, the messages
sent to `u`; a message is read exactly when an earlier `ReadMessage` of it succeeded; and
`ReadMessage(v, id)` succeeds exactly when `id` was sent to `v`. The store refines the log
step by step (`run_refines`): one call on the store is one step of the log.
-/

namespace Picoclaw.Mailbox

open Picoclaw.Go

/-- `mailbox.Message`. -/
structure Message where
  id : String
  «from» : String
  «to» : String
  content : String
  read : Bool
  timestamp : Time
  deriving DecidableEq, Repr

/-- A message marked read. -/
def Message.markRead (msg : Message) : Message := { msg with read := true }

/-- `mailbox.MemoryStore`; the mutex only serialises the calls. -/
structure MemoryStore where
  messages : GoMap String Message

/-- `NewMemoryStore()`. -/
def newMemoryStore : MemoryStore := ⟨GoMap.empty⟩

namespace MemoryStore

/-- `SendMessage`, with the id `uuid.New()` draws and the reading `time.Now()` gives. -/
def sendMessage (s : MemoryStore) (id : String) (now : Time) («from» «to» content : String) :
    MemoryStore × Except String String :=
  let msg : Message := { id := id, «from» := «from», «to» := «to», content := content,
                         read := false, timestamp := now }
  (⟨s.messages.set id msg⟩, .ok id)

/-- `ListMessages`: the loop keeps a message sent to or by `user`, then only one sent to
`user`. -/
def listMessages (s : MemoryStore) (user : String) : Except String (List Message) :=
  .ok (s.messages.values.filter fun msg => (msg.to = user || msg.«from» = user) && msg.to = user)

/-- `ReadMessage`: only the recipient may read; the copy returned is marked read. -/
def readMessage (s : MemoryStore) (user msgID : String) : MemoryStore × Except String Message :=
  match s.messages.get? msgID with
  | none => (s, .error "message not found")
  | some msg =>
    if msg.to ≠ user then (s, .error "unauthorized")
    else (⟨s.messages.modify msgID Message.markRead⟩, .ok (Message.markRead msg))

/-- A failed read, of a missing message or by another user, leaves the store as it was. -/
theorem readMessage_of_error {s : MemoryStore} {user msgID e : String}
    (h : (s.readMessage user msgID).2 = .error e) : (s.readMessage user msgID).1 = s := by
  unfold readMessage at h ⊢
  split at h
  · rfl
  · split_ifs at h ⊢
    rfl

end MemoryStore

/-- A mailbox call, with the id and the reading a send draws. -/
inductive Call where
  | sendMessage (id : String) (now : Time) («from» «to» content : String)
  | readMessage (user msgID : String)
  | listMessages (user : String)

namespace MemoryStore

/-- The state after one call. -/
def apply (s : MemoryStore) : Call → MemoryStore
  | .sendMessage id now «from» «to» content => (s.sendMessage id now «from» «to» content).1
  | .readMessage user msgID => (s.readMessage user msgID).1
  | .listMessages _ => s

/-- The state after calls in order. -/
def run (s : MemoryStore) (calls : List Call) : MemoryStore := calls.foldl apply s

@[simp] theorem run_nil (s : MemoryStore) : s.run [] = s := rfl

@[simp] theorem run_append_single (s : MemoryStore) (calls : List Call) (c : Call) :
    s.run (calls ++ [c]) = (s.run calls).apply c := List.foldl_append _ _ _ _

end MemoryStore

/-! ## The abstract log -/

/-- The message a send call stores. -/
def Call.sentMessage? : Call → Option Message
  | .sendMessage id now «from» «to» content =>
    some { id := id, «from» := «from», «to» := «to», content := content, read := false,
           timestamp := now }
  | _ => none

/-- The messages `calls` send, in order. -/
def sent (calls : List Call) : List Message := calls.filterMap Call.sentMessage?

/-- Every send draws an id no earlier send drew, hence not already in the store. -/
def FreshSends (calls : List Call) : Prop := ((sent calls).map (·.id)).Nodup

instance : DecidablePred FreshSends := fun calls =>
  inferInstanceAs (Decidable ((sent calls).map Message.id).Nodup)

/-- What `ReadMessage(user, msgID)` does to a message of the log. -/
def Log.markRead (user msgID : String) (msg : Message) : Message :=
  if msg.id = msgID ∧ msg.to = user then msg.markRead else msg

/-- The log after one call: a send appends its message, a read marks the message read when it
was sent to the reader, a list changes nothing. -/
def Log.apply (log : List Message) (c : Call) : List Message :=
  match c with
  | .readMessage user msgID => log.map (Log.markRead user msgID)
  | c => log ++ (c.sentMessage?).toList

/-- The log of a run. -/
def Log.run (calls : List Call) : List Message := calls.foldl Log.apply []

@[simp] theorem Log.run_append_single (calls : List Call) (c : Call) :
    Log.run (calls ++ [c]) = Log.apply (Log.run calls) c := List.foldl_append _ _ _ _

/-- A message with its read flag cleared. -/
def Message.unread (msg : Message) : Message := { msg with read := false }

@[simp] theorem Message.unread_markRead (msg : Message) : msg.markRead.unread = msg.unread := rfl

@[simp] theorem Log.unread_markRead (user msgID : String) (msg : Message) :
    (Log.markRead user msgID msg).unread = msg.unread := by
  unfold Log.markRead; split_ifs <;> rfl

@[simp] theorem Log.markRead_id (user msgID : String) (msg : Message) :
    (Log.markRead user msgID msg).id = msg.id := by
  unfold Log.markRead; split_ifs <;> rfl

@[simp] theorem Log.markRead_to (user msgID : String) (msg : Message) :
    (Log.markRead user msgID msg).to = msg.to := by
  unfold Log.markRead; split_ifs <;> rfl

/-- **The log holds what was sent**, read flags aside. -/
theorem Log.run_unread (calls : List Call) : (Log.run calls).map Message.unread = sent calls := by
  induction calls using List.reverseRecOn with
  | nil => rfl
  | append_singleton calls c ih =>
    rw [Log.run_append_single, sent, List.filterMap_append, ← sent, ← ih]
    cases c with
    | readMessage user msgID =>
      simp only [Log.apply, List.map_map, Function.comp_def, Log.unread_markRead,
        Call.sentMessage?, List.filterMap_cons_none, List.filterMap_nil, List.append_nil]
    | sendMessage id now «from» «to» content => simp [Log.apply, Call.sentMessage?, Message.unread]
    | listMessages user => simp [Log.apply, Call.sentMessage?]

theorem sent_append (l₁ l₂ : List Call) : sent (l₁ ++ l₂) = sent l₁ ++ sent l₂ :=
  List.filterMap_append _ _ _

theorem sent_single (c : Call) : sent [c] = c.sentMessage?.toList := by
  cases h : c.sentMessage? <;> simp [sent, h]

theorem FreshSends.of_append {l₁ l₂ : List Call} (h : FreshSends (l₁ ++ l₂)) :
    FreshSends l₁ := by
  unfold FreshSends at *
  rw [sent_append, List.map_append] at h
  exact h.of_append_left

/-- In a fresh run, the message a call sends has an id no earlier call sent. -/
theorem FreshSends.not_mem_last {calls : List Call} {c : Call} (h : FreshSends (calls ++ [c]))
    {msg : Message} (hmsg : msg ∈ c.sentMessage?) : msg.id ∉ (sent calls).map (·.id) := by
  unfold FreshSends at h
  rw [sent_append, sent_single, List.map_append] at h
  exact fun hid => List.disjoint_of_nodup_append h hid
    (List.mem_map_of_mem _ (Option.mem_toList.mpr hmsg))

theorem Log.run_ids (calls : List Call) : (Log.run calls).map (·.id) = (sent calls).map (·.id) := by
  rw [← Log.run_unread, List.map_map]; rfl

/-! ## The store refines the log -/

/-- The store holds exactly the log's messages, each under its own id. -/
structure Refines (s : MemoryStore) (log : List Message) : Prop where
  values_eq : s.messages.values = log
  keyed : ∀ k msg, s.messages.get? k = some msg → msg.id = k

namespace Refines

variable {s : MemoryStore} {log : List Message}

theorem get?_of_mem (h : Refines s log) {msg : Message} (hm : msg ∈ log) :
    s.messages.get? msg.id = some msg := by
  rw [← h.values_eq, GoMap.mem_values_iff] at hm
  obtain ⟨k, hk⟩ := hm
  rwa [h.keyed k msg hk]

theorem get?_eq_none (h : Refines s log) {id : String} (hid : id ∉ log.map (·.id)) :
    s.messages.get? id = none := by
  cases hk : s.messages.get? id with
  | none => rfl
  | some msg =>
    refine absurd (List.mem_map.mpr ⟨msg, ?_, h.keyed id msg hk⟩) hid
    exact h.values_eq ▸ (GoMap.mem_values_iff _).mpr ⟨id, hk⟩

/-- A read whose check fails leaves the log as it is: no message of the log is both `msgID` and
sent to `user`. -/
theorem markRead_eq_self (h : Refines s log) (user msgID : String)
    (hno : ∀ msg, s.messages.get? msgID = some msg → msg.to ≠ user) :
    log.map (Log.markRead user msgID) = log := by
  conv_rhs => rw [← List.map_id log]
  refine List.map_congr_left fun msg hm => if_neg ?_
  rintro ⟨rfl, hto⟩
  exact hno msg (h.get?_of_mem hm) hto

/-- A read whose check passes marks, in the store as in the log, exactly that message. -/
theorem values_modify_markRead (h : Refines s log) {user msgID : String} {msg : Message}
    (hget : s.messages.get? msgID = some msg) (hto : msg.to = user) :
    (s.messages.modify msgID Message.markRead).values = log.map (Log.markRead user msgID) := by
  rw [← h.values_eq]
  simp only [GoMap.values, GoMap.entries_modify, List.map_map]
  refine List.map_congr_left fun e he => ?_
  have he' := (GoMap.mem_entries_iff _).mp he
  have hkey : e.2.id = e.1 := h.keyed _ _ he'
  by_cases he1 : e.1 = msgID
  · obtain rfl : e.2 = msg := Option.some.inj (he' ▸ he1 ▸ hget)
    simp [GoMap.update, Log.markRead, he1, hkey, hto]
  · simp [GoMap.update, Log.markRead, he1, hkey]

/-- **A send of a fresh id** appends its message to the store as to the log. -/
theorem send {id : String} (h : Refines s log) (hid : id ∉ log.map (·.id)) (now : Time)
    («from» «to» content : String) :
    Refines (s.sendMessage id now «from» «to» content).1
      (Log.apply log (.sendMessage id now «from» «to» content)) where
  values_eq := by
    simp only [MemoryStore.sendMessage, GoMap.values, GoMap.entries_set_of_get?_eq_none
      (h.get?_eq_none hid), List.map_append, Log.apply, Call.sentMessage?, Option.toList_some]
    rw [← h.values_eq]; rfl
  keyed k msg hk := by
    simp only [MemoryStore.sendMessage, GoMap.get?_set] at hk
    split_ifs at hk with hk'
    · cases hk; exact hk'
    · exact h.keyed k msg hk

/-- **A read** marks the message in the store as in the log, or changes neither. -/
theorem read (h : Refines s log) (user msgID : String) :
    Refines (s.readMessage user msgID).1 (Log.apply log (.readMessage user msgID)) := by
  show Refines _ (log.map (Log.markRead user msgID))
  cases hget : s.messages.get? msgID with
  | none =>
    simp only [MemoryStore.readMessage, hget]
    rwa [h.markRead_eq_self user msgID (by simp [hget])]
  | some msg =>
    by_cases hto : msg.to = user
    · simp only [MemoryStore.readMessage, hget, hto, ne_eq, not_true_eq_false, if_false]
      refine ⟨h.values_modify_markRead hget hto, fun k m hk => ?_⟩
      rw [GoMap.get?_modify] at hk
      split_ifs at hk
      · obtain ⟨m', hm', rfl⟩ := Option.map_eq_some'.mp hk
        exact h.keyed k m' hm'
      · exact h.keyed k m hk
    · simp only [MemoryStore.readMessage, hget, hto, ne_eq, not_false_eq_true, if_true]
      rwa [h.markRead_eq_self user msgID (by simp [hget, hto])]

/-- **One call on the store is one step of the log**, for a send of a fresh id. -/
theorem apply (h : Refines s log) (c : Call)
    (hfresh : ∀ msg ∈ c.sentMessage?, msg.id ∉ log.map (·.id)) :
    Refines (s.apply c) (Log.apply log c) := by
  cases c with
  | sendMessage id now «from» «to» content =>
    exact h.send (hfresh _ rfl) now «from» «to» content
  | readMessage user msgID => exact h.read user msgID
  | listMessages user => simpa [Log.apply, Call.sentMessage?] using h

/-- `ListMessages(u)` lists the log's messages sent to `u`. -/
theorem listMessages_eq (h : Refines s log) (user : String) :
    s.listMessages user = .ok (log.filter (·.to = user)) := by
  rw [MemoryStore.listMessages, h.values_eq]
  congr 1
  exact List.filter_congr fun m _ => by by_cases hm : m.to = user <;> simp [hm]

/-- `ReadMessage(u, id)` succeeds exactly when the log holds message `id` sent to `u`. -/
theorem readMessage_isOk_iff (h : Refines s log) (user msgID : String) :
    (s.readMessage user msgID).2.isOk ↔ ∃ msg ∈ log, msg.id = msgID ∧ msg.to = user := by
  unfold MemoryStore.readMessage
  cases hget : s.messages.get? msgID with
  | none =>
    simp only [Except.isOk, Except.toBool, Bool.false_eq_true, false_iff, not_exists, not_and]
    rintro msg hm rfl -
    exact absurd (h.get?_of_mem hm) (by simp [hget])
  | some msg =>
    have hmem : msg ∈ log := h.values_eq ▸ (GoMap.mem_values_iff _).mpr ⟨msgID, hget⟩
    have hid : msg.id = msgID := h.keyed _ _ hget
    by_cases hto : msg.to = user
    · simp only [hto, ne_eq, not_true_eq_false, if_false, Except.isOk, Except.toBool, true_iff]
      exact ⟨msg, hmem, hid, hto⟩
    · simp only [hto, ne_eq, not_false_eq_true, if_true, Except.isOk, Except.toBool,
        Bool.false_eq_true, false_iff, not_exists, not_and]
      rintro m hm rfl hmto
      have : some m = some msg := (h.get?_of_mem hm).symm.trans hget
      exact hto (Option.some.inj this ▸ hmto)

/-- Two messages of the log with one id are one message. -/
theorem eq_of_id_eq (h : Refines s log) {m m' : Message} (hm : m ∈ log) (hm' : m' ∈ log)
    (hid : m.id = m'.id) : m = m' :=
  Option.some.inj ((h.get?_of_mem hm).symm.trans (hid ▸ h.get?_of_mem hm'))

/-- A held message is read successfully by its addressee and by no one else. -/
theorem readMessage_isOk_iff_of_mem (h : Refines s log) {msg : Message} (hm : msg ∈ log)
    (user : String) : (s.readMessage user msg.id).2.isOk ↔ msg.to = user := by
  rw [h.readMessage_isOk_iff]
  exact ⟨fun ⟨m', hm', hid, hto⟩ => h.eq_of_id_eq hm' hm hid ▸ hto,
    fun hto => ⟨msg, hm, rfl, hto⟩⟩

end Refines

/-- **The run refines the log**, as long as every send draws a fresh id. -/
theorem run_refines (calls : List Call) (hfresh : FreshSends calls) :
    Refines (newMemoryStore.run calls) (Log.run calls) := by
  induction calls using List.reverseRecOn with
  | nil => exact ⟨rfl, fun k msg h => by simp [newMemoryStore] at h⟩
  | append_singleton calls c ih =>
    rw [MemoryStore.run_append_single, Log.run_append_single]
    refine (ih hfresh.of_append).apply c fun msg hmsg => ?_
    rw [Log.run_ids]
    exact hfresh.not_mem_last hmsg

/-! ## Read flags -/

/-- Some `ReadMessage(user, msgID)` call of `calls` succeeded: run from a new store, it
returned the message. -/
def ReadSucceeded (calls : List Call) (msgID : String) : Prop :=
  ∃ pre user rest, calls = pre ++ .readMessage user msgID :: rest ∧
    ((newMemoryStore.run pre).readMessage user msgID).2.isOk

theorem readSucceeded_append_single {calls : List Call} {c : Call} {msgID : String} :
    ReadSucceeded (calls ++ [c]) msgID ↔ ReadSucceeded calls msgID ∨
      ∃ user, c = .readMessage user msgID ∧
        ((newMemoryStore.run calls).readMessage user msgID).2.isOk := by
  constructor
  · rintro ⟨pre, user, rest, heq, hok⟩
    rcases List.eq_nil_or_concat rest with rfl | ⟨rest, last, rfl⟩
    · obtain ⟨rfl, hc⟩ := List.append_inj' heq rfl
      exact .inr ⟨user, List.singleton_inj.mp hc, hok⟩
    · rw [List.concat_eq_append, ← List.cons_append, ← List.append_assoc] at heq
      obtain ⟨rfl, -⟩ := List.append_inj' heq rfl
      exact .inl ⟨pre, user, rest, rfl, hok⟩
  · rintro (⟨pre, user, rest, rfl, hok⟩ | ⟨user, rfl, hok⟩)
    · exact ⟨pre, user, rest ++ [c], by simp, hok⟩
    · exact ⟨calls, user, [], rfl, hok⟩

/-- A read succeeds only on a message already sent. -/
theorem mem_sent_of_readSucceeded {calls : List Call} {msgID : String} (hfresh : FreshSends calls)
    (h : ReadSucceeded calls msgID) : msgID ∈ (sent calls).map (·.id) := by
  obtain ⟨pre, user, rest, rfl, hok⟩ := h
  have hpre := hfresh.of_append
  obtain ⟨msg, hm, rfl, -⟩ := ((run_refines pre hpre).readMessage_isOk_iff user msgID).mp hok
  rw [sent_append, List.map_append]
  exact List.mem_append_left _ (Log.run_ids pre ▸ List.mem_map_of_mem _ hm)

/-- **A message is read exactly when an earlier read of it succeeded.** -/
theorem read_iff_readSucceeded (calls : List Call) (hfresh : FreshSends calls) :
    ∀ msg ∈ Log.run calls, msg.read = true ↔ ReadSucceeded calls msg.id := by
  induction calls using List.reverseRecOn with
  | nil => simp [Log.run]
  | append_singleton calls c ih =>
    have hpre := hfresh.of_append
    have href := run_refines calls hpre
    intro msg hmsg
    rw [readSucceeded_append_single]
    rw [Log.run_append_single] at hmsg
    cases c with
    | sendMessage id now «from» «to» content =>
      simp only [Log.apply, Call.sentMessage?, Option.toList_some, List.mem_append,
        List.mem_singleton] at hmsg
      rcases hmsg with hmsg | rfl
      · simpa using ih hpre msg hmsg
      · have hnew : id ∉ (sent calls).map (·.id) := hfresh.not_mem_last rfl
        simpa using fun h => hnew (mem_sent_of_readSucceeded hpre h)
    | readMessage user msgID =>
      obtain ⟨m, hm, rfl⟩ := List.mem_map.mp hmsg
      have ihm := ih hpre m hm
      simp only [Log.markRead_id, Call.readMessage.injEq]
      by_cases hid : m.id = msgID
      · subst hid
        have hok := href.readMessage_isOk_iff_of_mem hm user
        by_cases hto : m.to = user
        · simp [Log.markRead, hto, Message.markRead, hok]
        · simp [Log.markRead, hto, hok, ihm]
      · simp [Log.markRead, hid, Ne.symm hid, ihm]
    | listMessages user =>
      simp only [Log.apply, Call.sentMessage?, Option.toList_none, List.append_nil] at hmsg
      simpa using ih hpre msg hmsg

/-! ## The refinement law -/

/-- **The mailbox refines the log of sent messages.** When every send draws a fresh id, the
store holds the log, up to order; `ListMessages(u)` returns the messages sent to `u`, once each
and unchanged but for `Read`, which is set exactly when an earlier `ReadMessage` of the message
succeeded; and `ReadMessage(v, id)` succeeds exactly when `id` was sent to `v`. -/
theorem mailbox_refines_log (calls : List Call) (hfresh : FreshSends calls) :
    (newMemoryStore.run calls).messages.values.Perm (Log.run calls) ∧
    (∀ user, ∃ r, (newMemoryStore.run calls).listMessages user = .ok r ∧
      (r.map Message.unread).Perm ((sent calls).filter (·.to = user)) ∧
      ∀ msg ∈ r, (msg.read = true ↔ ReadSucceeded calls msg.id)) ∧
    (∀ user msgID, ((newMemoryStore.run calls).readMessage user msgID).2.isOk ↔
      ∃ msg ∈ sent calls, msg.id = msgID ∧ msg.to = user) := by
  have h := run_refines calls hfresh
  refine ⟨h.values_eq ▸ List.Perm.refl _, fun user => ⟨_, h.listMessages_eq user, ?_, ?_⟩,
    fun user msgID => ?_⟩
  · rw [← Log.run_unread, List.filter_map]
    exact List.Perm.of_eq rfl
  · intro msg hmsg
    exact read_iff_readSucceeded calls hfresh msg (List.mem_of_mem_filter hmsg)
  · rw [h.readMessage_isOk_iff, ← Log.run_unread]
    simp only [List.mem_map, exists_exists_and_eq_and]
    rfl

/-- The calls of `TestMailboxStore`, with ids and readings filled in. -/
def testMailboxCalls : List Call :=
  [.sendMessage "m1" ⟨1⟩ "dad" "kid" "Clean your room", .listMessages "kid",
   .sendMessage "m2" ⟨2⟩ "kid" "dad" "Done!", .readMessage "dad" "m2", .listMessages "dad",
   .sendMessage "m3" ⟨3⟩ "mom" "kid" "Hi", .readMessage "dad" "m3"]

/-- In that script, dad's read of the message to kid fails, as it was not sent to him. -/
theorem testMailboxCalls_read_iff :
    ((newMemoryStore.run testMailboxCalls).readMessage "dad" "m3").2.isOk ↔
      ∃ msg ∈ sent testMailboxCalls, msg.id = "m3" ∧ msg.to = "dad" :=
  (mailbox_refines_log testMailboxCalls (by decide)).2.2 "dad" "m3"

end Picoclaw.Mailbox
