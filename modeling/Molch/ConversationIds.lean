import Molch.BackupBehaviour
import Molch.Foundation.Runs
import Molch.User

namespace Molch

variable {B : Type}

namespace ConversationStore

/-- `ConversationStore::remove` of a node. The node is the null pointer or the place of a
conversation; a place past the end is a pointer to something else. -/
def removeNode (node : Option ℕ) (conversations : List (Conversation B)) :
    List (Conversation B) :=
  match node with
  | none => conversations
  | some index => conversations.eraseIdx index

def clear : List (Conversation B) := []

inductive Call (B : Type) where
  | add (conversation : Conversation B)
  | remove (id : ConversationId B)
  | removeNode (node : Option ℕ)
  | clear
  | import_ (conversations : List (ProtobufCConversation B))

/-- A store, and beside it the conversation that was added or imported last under each id and
has not been removed since. -/
structure Recorded (B : Type) where
  conversations : List (Conversation B)
  latest : ConversationId B → Option (Conversation B)

namespace Recorded

def empty : Recorded B := ⟨[], fun _ => none⟩

variable [DecidableEq B] [Byte B]

/-- An import that fails leaves the store as it is. -/
def call (store : Recorded B) : Call B → Except Error Unit × Recorded B
  | .add conversation =>
      (.ok (), ⟨add conversation store.conversations,
        Function.update store.latest conversation.id (some conversation)⟩)
  | .remove id =>
      (.ok (), ⟨remove id store.conversations, Function.update store.latest id none⟩)
  | .removeNode node =>
      (.ok (), ⟨removeNode node store.conversations,
        match node.bind fun index => store.conversations[index]? with
        | some conversation => Function.update store.latest conversation.id none
        | none => store.latest⟩)
  | .clear => (.ok (), ⟨ConversationStore.clear, fun _ => none⟩)
  | .import_ conversations =>
      match ConversationStore.import_ conversations with
      | .ok imported => (.ok (), ⟨imported, fun id => find id imported.reverse⟩)
      | .error e => (.error e, store)

/-- The store knows its conversations by their ids. -/
structure KnownById (store : Recorded B) : Prop where
  distinct : (store.conversations.map Conversation.id).Nodup
  find_eq : ∀ id, find id store.conversations = store.latest id
  list_eq : ∃ ids : List (ConversationId B), ids.Nodup ∧
    (∀ id, id ∈ ids ↔ (store.latest id).isSome) ∧
    list store.conversations = (ids.map Key.bytes).flatten
  find_remove : ∀ id, find id (remove id store.conversations) = none

/-- A list of conversations that is imported has no two with the same id. -/
def ImportsDistinctIds (_ : Recorded B) : Call B → Prop
  | .import_ conversations => (ConversationStore.import_ conversations).isOk →
      (conversations.map ProtobufCConversation.id).Nodup
  | _ => True

variable {store : Recorded B}

omit [Byte B] in
theorem knownById_of_distinct {conversations : List (Conversation B)}
    {latest : ConversationId B → Option (Conversation B)}
    (hdistinct : (conversations.map Conversation.id).Nodup)
    (hfind : ∀ id, find id conversations = latest id) : KnownById ⟨conversations, latest⟩ where
  distinct := hdistinct
  find_eq := hfind
  list_eq := by
    refine ⟨conversations.map Conversation.id, hdistinct, ?_, ?_⟩
    · intro id
      change _ ↔ (latest id).isSome = true
      rw [← hfind, Option.isSome_iff_exists, List.mem_map]
      constructor
      · rintro ⟨conversation, hmem, hid⟩
        exact ⟨conversation, (Keyed.find_eq_some_iff_mem hdistinct).mpr ⟨hmem, hid⟩⟩
      · rintro ⟨conversation, hfound⟩
        exact ⟨conversation, Keyed.mem_of_find hfound, Keyed.key_of_find hfound⟩
    · rw [list, List.map_map]
      rfl
  find_remove := Keyed.find_remove hdistinct

omit [Byte B] in
theorem knownById_empty : (empty : Recorded B).KnownById :=
  knownById_of_distinct List.nodup_nil fun _ => rfl

omit [Byte B] in
theorem KnownById.add (h : store.KnownById) (conversation : Conversation B) :
    KnownById ⟨add conversation store.conversations,
      Function.update store.latest conversation.id (some conversation)⟩ := by
  apply knownById_of_distinct (Keyed.nodup_add conversation h.distinct)
  intro id
  by_cases hid : conversation.id = id
  · subst hid
    rw [Function.update_self]
    exact Keyed.find_add conversation store.conversations
  · rw [Function.update_of_ne (Ne.symm hid), ← h.find_eq]
    exact Keyed.find_add_of_ne hid store.conversations

omit [Byte B] in
theorem KnownById.remove (h : store.KnownById) (id : ConversationId B) :
    KnownById ⟨remove id store.conversations, Function.update store.latest id none⟩ := by
  apply knownById_of_distinct (Keyed.nodup_remove id h.distinct)
  intro id'
  by_cases hid : id = id'
  · subst hid
    rw [Function.update_self]
    exact h.find_remove id
  · rw [Function.update_of_ne (Ne.symm hid), ← h.find_eq]
    exact Keyed.find_remove_of_ne hid store.conversations

omit [Byte B] in
theorem removeNode_eq_remove (hdistinct : (store.conversations.map Conversation.id).Nodup)
    {node : Option ℕ} {conversation : Conversation B}
    (h : (node.bind fun index => store.conversations[index]?) = some conversation) :
    removeNode node store.conversations =
      ConversationStore.remove conversation.id store.conversations := by
  obtain ⟨index, rfl, hindex⟩ := Option.bind_eq_some_iff.mp h
  exact Keyed.eraseIdx_eq_remove hdistinct hindex

omit [DecidableEq B] [Byte B] in
theorem removeNode_of_none {node : Option ℕ} {conversations : List (Conversation B)}
    (h : (node.bind fun index => conversations[index]?) = none) :
    removeNode node conversations = conversations := by
  cases node with
  | none => rfl
  | some index => exact List.eraseIdx_of_length_le (List.getElem?_eq_none_iff.mp h)

end Recorded

variable [Byte B]

theorem ids_of_import {conversations : List (ProtobufCConversation B)}
    {imported : List (Conversation B)} (h : import_ conversations = .ok imported) :
    (imported.map Conversation.id).map Key.bytes =
      conversations.map ProtobufCConversation.id := by
  induction conversations generalizing imported with
  | nil =>
      cases h
      rfl
  | cons conversation conversations ih =>
      rw [import_, List.mapM_cons] at h
      obtain ⟨first, hfirst, h⟩ := Result.bind_eq_ok.mp h
      obtain ⟨rest, hrest, h⟩ := Result.bind_eq_ok.mp h
      cases h
      obtain ⟨id, hid, hfirst⟩ := Result.bind_eq_ok.mp hfirst
      obtain ⟨ratchet, -, hfirst⟩ := Result.bind_eq_ok.mp hfirst
      cases hfirst
      simp only [List.map_cons, ih hrest, Key.bytes_of_fromSpan hid]

theorem distinct_of_import {conversations : List (ProtobufCConversation B)}
    {imported : List (Conversation B)} (h : import_ conversations = .ok imported) :
    (imported.map Conversation.id).Nodup ↔
      (conversations.map ProtobufCConversation.id).Nodup := by
  rw [← ids_of_import h]
  exact (List.nodup_map_iff fun _ _ => Key.ext).symm

namespace Recorded

variable [DecidableEq B] {store : Recorded B}

theorem knownById_call_iff (call : Call B) (h : store.KnownById) :
    (store.call call).2.KnownById ↔ store.ImportsDistinctIds call := by
  cases call with
  | add conversation => exact iff_of_true (h.add conversation) trivial
  | remove id => exact iff_of_true (h.remove id) trivial
  | removeNode node =>
      refine iff_of_true ?_ trivial
      rw [Recorded.call]
      cases hnode : node.bind fun index => store.conversations[index]? with
      | none =>
          rw [removeNode_of_none hnode]
          exact h
      | some conversation =>
          rw [removeNode_eq_remove h.distinct hnode]
          exact h.remove conversation.id
  | clear => exact iff_of_true knownById_empty trivial
  | import_ conversations =>
      rw [ImportsDistinctIds, Recorded.call]
      cases himport : ConversationStore.import_ conversations with
      | error e => exact iff_of_true h fun hok => absurd hok Bool.false_ne_true
      | ok imported =>
          rw [← distinct_of_import himport]
          constructor
          · intro hknown _
            exact hknown.distinct
          · intro hdistinct
            apply knownById_of_distinct (hdistinct rfl)
            intro id
            exact (Keyed.find_reverse (hdistinct rfl) id).symm

/-- From the empty store on, all conversations can be told apart by their ids as long as the
lists that are imported have distinct ids, and no longer. -/
theorem conversations_known_by_id_iff (calls : List (Call B)) :
    (∀ before after, calls = before ++ after →
        (Runs.final call empty before : Recorded B).KnownById) ↔
      Runs.Admitted call ImportsDistinctIds empty calls :=
  Runs.forall_holds_iff_admitted KnownById (fun _ call h => knownById_call_iff call h)
    knownById_empty

end Recorded

end ConversationStore

namespace Symbolic

open ConversationStore

/-- A conversation that comes twice in an import is kept twice. After one removal the id still
leads to a conversation, although all that was imported under it has been removed. -/
theorem imported_conversation_kept_twice :
    ∃ (exported : ProtobufCConversation ℕ) (conversation : Conversation ℕ),
      Runs.outputs Recorded.call .empty
        [.import_ [exported, exported], .remove conversation.id] = [.ok (), .ok ()] ∧
      ¬ ((Runs.final Recorded.call .empty [.import_ [exported, exported]]).conversations.map
        Conversation.id).Nodup ∧
      (let store := Runs.final Recorded.call .empty
        [.import_ [exported, exported], .remove conversation.id]
      find conversation.id store.conversations = some conversation ∧
        store.latest conversation.id = none) := by
  obtain ⟨created, hreachable⟩ := exists_created
  obtain ⟨exported, -, himport, -⟩ :=
    (hreachable World.ClockSane).exportProtobuf kdfNonzero scalarmultFailsByPoint
  generalize created.restored = conversation at himport
  have hboth : ConversationStore.import_ [exported, exported] =
      .ok [conversation, conversation] := by
    rw [ConversationStore.import_, List.mapM_cons, List.mapM_cons, List.mapM_nil, himport]
    rfl
  have hcall : Recorded.call .empty (.import_ [exported, exported]) =
      (.ok (), ⟨[conversation, conversation],
        fun id => find id [conversation, conversation].reverse⟩) := by
    rw [Recorded.call, hboth]
  have hremove : remove conversation.id [conversation, conversation] = [conversation] := by
    rw [remove, Keyed.remove, if_pos rfl]
  refine ⟨exported, conversation, ?_, ?_, ?_, ?_⟩
  · rw [Runs.outputs, hcall]
    rfl
  · rw [Runs.final, hcall]
    simp [Runs.final]
  · rw [Runs.final, hcall, Runs.final, Recorded.call, hremove]
    simp [Runs.final, find, Keyed.find]
  · rw [Runs.final, hcall, Runs.final, Recorded.call]
    exact Function.update_self _ _ _

end Symbolic

end Molch
