import Molch.Protobuf
import Molch.Sodium
import Mathlib.Data.List.Perm.Subperm

namespace Molch

structure HeaderAndMessageKey (B : Type) where
  headerKey : EmptyableHeaderKey B
  messageKey : MessageKey B
  expirationDate : ℤ

/-- `HeaderAndMessageKeyStore`, with `key_storage` as its only field. -/
@[ext]
structure HeaderAndMessageKeyStore (B : Type) where
  keys : List (HeaderAndMessageKey B)

def maximumKeys : ℕ := 1000

/-- `header_and_message_store_maximum_age`, and the `expiration_time` of a new key. -/
def maximumAge : ℤ := month

variable {B : Type}

namespace HeaderAndMessageKey

/-- The constructor that dates the key by the clock. -/
def create (headerKey : EmptyableHeaderKey B) (messageKey : MessageKey B) (w : World B) :
    HeaderAndMessageKey B × World B :=
  match w.now with
  | (time, w) => (⟨headerKey, messageKey, time + maximumAge⟩, w)

/-- Outdated at the given time: `expirationDate() <= time - maximum_age`. -/
def outdated (time : ℤ) (key : HeaderAndMessageKey B) : Bool :=
  decide (key.expirationDate ≤ time - maximumAge)

def import_ (bundle : ProtobufCKeyBundle B) : Except Error (HeaderAndMessageKey B) :=
  if bundle.headerKey.length ≠ 32 then
    .error ⟨.protobufMissingError, "KeyBundle has an incorrect header key."⟩
  else do
    let headerKey ← EmptyableKey.fromSpan bundle.headerKey
    if bundle.messageKey.length ≠ 32 then
      .error ⟨.protobufMissingError, "KeyBundle has an incorrect message key."⟩
    else do
      let messageKey ← Key.fromSpan bundle.messageKey
      match bundle.expirationTime with
      | none => .error ⟨.protobufMissingError, "KeyBundle has no expiration time."⟩
      | some time => .ok ⟨headerKey, messageKey, secondsOfUInt64 time⟩

def exportProtobuf (key : HeaderAndMessageKey B) : Except Failure (ProtobufCKeyBundle B) := do
  let time ← narrowUInt64 key.expirationDate
  pure ⟨key.headerKey.key.bytes, key.messageKey.bytes, some time⟩

end HeaderAndMessageKey

namespace HeaderAndMessageKeyStore

/-- The insertion of `add(key)`: at the end if no later key is stored, otherwise at the
upper bound of its date. -/
def insertKey (key : HeaderAndMessageKey B) (keys : List (HeaderAndMessageKey B)) :
    List (HeaderAndMessageKey B) :=
  match keys.getLast? with
  | none => keys ++ [key]
  | some last =>
      if last.expirationDate ≤ key.expirationDate then keys ++ [key]
      else keys.takeWhile (fun k => decide (k.expirationDate ≤ key.expirationDate)) ++
        key :: keys.dropWhile (fun k => decide (k.expirationDate ≤ key.expirationDate))

/-- `add(const HeaderAndMessageKey&)`. -/
def addKey (store : HeaderAndMessageKeyStore B) (key : HeaderAndMessageKey B) (w : World B) :
    HeaderAndMessageKeyStore B × World B :=
  match w.now with
  | (time, w) =>
      if key.outdated time then (store, w)
      else (⟨insertKey key
        (if store.keys.length = maximumKeys then store.keys.tail else store.keys)⟩, w)

/-- `add(const EmptyableHeaderKey&, const MessageKey&)`. -/
def add (store : HeaderAndMessageKeyStore B) (headerKey : EmptyableHeaderKey B)
    (messageKey : MessageKey B) (w : World B) : HeaderAndMessageKeyStore B × World B :=
  match HeaderAndMessageKey.create headerKey messageKey w with
  | (key, w) => store.addKey key w

/-- The part of `removeOutdatedAndTrimSize` after the clock has been read. -/
def trim (time : ℤ) (keys : List (HeaderAndMessageKey B)) : List (HeaderAndMessageKey B) :=
  let fresh := keys.dropWhile (HeaderAndMessageKey.outdated time)
  if fresh.length > maximumKeys then fresh.drop (fresh.length - maximumKeys) else fresh

def removeOutdatedAndTrimSize (store : HeaderAndMessageKeyStore B) (w : World B) :
    HeaderAndMessageKeyStore B × World B :=
  match w.now with
  | (time, w) => (⟨trim time store.keys⟩, w)

/-- `add(const HeaderAndMessageKeyStore&)`: a stable merge, then trimming. -/
def addStore (store other : HeaderAndMessageKeyStore B) (w : World B) :
    HeaderAndMessageKeyStore B × World B :=
  removeOutdatedAndTrimSize ⟨store.keys.merge other.keys
    fun a b => decide (a.expirationDate ≤ b.expirationDate)⟩ w

/-- `remove(index)`. -/
def remove (store : HeaderAndMessageKeyStore B) (index : ℕ) : HeaderAndMessageKeyStore B :=
  ⟨store.keys.eraseIdx index⟩

def clear : HeaderAndMessageKeyStore B := ⟨[]⟩

def exportProtobuf (store : HeaderAndMessageKeyStore B) :
    Except Failure (List (ProtobufCKeyBundle B)) :=
  store.keys.mapM HeaderAndMessageKey.exportProtobuf

def import_ (bundles : List (ProtobufCKeyBundle B)) :
    Except Error (HeaderAndMessageKeyStore B) := do
  let keys ← bundles.mapM HeaderAndMessageKey.import_
  pure ⟨keys⟩

theorem insertKey_perm (key : HeaderAndMessageKey B) (keys : List (HeaderAndMessageKey B)) :
    (insertKey key keys).Perm (key :: keys) := by
  unfold insertKey
  split
  · exact List.perm_append_singleton key keys
  · split
    · exact List.perm_append_singleton key keys
    · refine List.perm_middle.trans (List.Perm.cons key ?_)
      rw [List.takeWhile_append_dropWhile]

theorem addKey_subperm (store : HeaderAndMessageKeyStore B) (key : HeaderAndMessageKey B)
    (w : World B) : (store.addKey key w).1.keys.Subperm (key :: store.keys) := by
  unfold addKey
  simp only
  split
  · exact List.Subperm.cons_self
  · refine (insertKey_perm key _).subperm.trans ?_
    split
    · exact ((List.tail_sublist store.keys).cons_cons key).subperm
    · exact List.Subperm.refl _

@[simp] theorem addKey_world (store : HeaderAndMessageKeyStore B) (key : HeaderAndMessageKey B)
    (w : World B) : (store.addKey key w).2 = w.now.2 := by
  unfold addKey
  simp only
  split <;> rfl

theorem addKey_perm (store : HeaderAndMessageKeyStore B) (key : HeaderAndMessageKey B)
    (w : World B) (hfresh : key.outdated w.now.1 = false)
    (hsize : store.keys.length < maximumKeys) :
    (store.addKey key w).1.keys.Perm (key :: store.keys) := by
  unfold addKey
  simp only [hfresh, hsize.ne, if_false, Bool.false_eq_true]
  exact insertKey_perm key _

theorem trim_sublist (time : ℤ) (keys : List (HeaderAndMessageKey B)) :
    (trim time keys).Sublist keys := by
  unfold trim
  simp only
  split
  · exact (List.drop_sublist _ _).trans (List.dropWhile_sublist _)
  · exact List.dropWhile_sublist _

theorem trim_eq_self {time : ℤ} {keys : List (HeaderAndMessageKey B)}
    (hfresh : ∀ key ∈ keys, key.outdated time = false) (hsize : keys.length ≤ maximumKeys) :
    trim time keys = keys := by
  have hdrop : keys.dropWhile (HeaderAndMessageKey.outdated time) = keys := by
    cases keys with
    | nil => rfl
    | cons key rest =>
        exact List.dropWhile_cons_of_neg (by simp [hfresh key List.mem_cons_self])
  unfold trim
  simp only [hdrop]
  exact if_neg (by omega)

theorem addStore_subperm (store other : HeaderAndMessageKeyStore B) (w : World B) :
    (store.addStore other w).1.keys.Subperm (store.keys ++ other.keys) := by
  unfold addStore removeOutdatedAndTrimSize
  exact (trim_sublist _ _).subperm.trans (List.merge_perm_append _).subperm

theorem mem_of_mem_remove {store : HeaderAndMessageKeyStore B} {index : ℕ}
    {key : HeaderAndMessageKey B} (h : key ∈ (store.remove index).keys) : key ∈ store.keys :=
  List.mem_of_mem_eraseIdx h

end HeaderAndMessageKeyStore

end Molch
