import Molch.Foundation.Result
import Molch.KeyStore
import Mathlib.Data.Fin.Tuple.Basic
import Mathlib.Data.List.OfFn
import Mathlib.Order.Bounds.Basic

namespace Molch

structure Prekey (B : Type) where
  publicKey : PublicKey B
  privateKey : PrivateKey B
  expirationDate : ℤ

/-- The storage has exactly `PREKEY_AMOUNT` places. -/
structure PrekeyStore (B : Type) where
  oldestExpirationDate : ℤ
  oldestDeprecatedExpirationDate : ℤ
  prekeys : Fin prekeyAmount → Prekey B
  deprecatedPrekeys : List (Prekey B)

def prekeyExpirationTime : ℤ := month

def deprecatedPrekeyExpirationTime : ℤ := 3600

variable {B : Type}

namespace Prekey

def exportProtobuf (prekey : Prekey B) : Except Failure (ProtobufCPrekey B) := do
  let time ← narrowUInt64 prekey.expirationDate
  pure ⟨prekey.privateKey.bytes, some prekey.publicKey.bytes, some time⟩

variable [Sodium B]

/-- The key pair is drawn before the clock is read. -/
def generate (w : World B) : Prekey B × World B :=
  match cryptoBoxKeypair w with
  | ((publicKey, privateKey), w) =>
      match w.now with
      | (time, w) => (⟨publicKey, privateKey, time + prekeyExpirationTime⟩, w)

/-- A missing public key is derived from the private key. -/
def importPublicKey (privateKey : PrivateKey B) (field : Option (List B)) :
    Except Error (PublicKey B) :=
  match field with
  | none => .ok (Sodium.cryptoScalarmultBase privateKey)
  | some bytes =>
      if bytes.length ≠ 32 then
        .error ⟨.protobufMissingError, "Prekey protobuf is missing a public key."⟩
      else Key.fromSpan bytes

def import_ (keypair : ProtobufCPrekey B) : Except Error (Prekey B) :=
  if keypair.privateKey.length ≠ 32 then
    .error ⟨.protobufMissingError, "Prekey protobuf is missing a private key."⟩
  else do
    let privateKey ← Key.fromSpan keypair.privateKey
    let publicKey ← importPublicKey privateKey keypair.publicKey
    match keypair.expirationTime with
    | none => .error ⟨.protobufMissingError, "Prekey protobuf is missing an expiration time."⟩
    | some time => .ok ⟨publicKey, privateKey, secondsOfUInt64 time⟩

end Prekey

/-- The expiration date of `std::min_element`, and 0 if there is no element. -/
def oldestOf : List (Prekey B) → ℤ
  | [] => 0
  | prekey :: prekeys =>
      prekeys.foldl (fun date other => min date other.expirationDate) prekey.expirationDate

namespace PrekeyStore

def active (store : PrekeyStore B) : List (Prekey B) := List.ofFn store.prekeys

def activeKeys (store : PrekeyStore B) : List (PublicKey B) :=
  store.active.map (·.publicKey)

def deprecatedKeys (store : PrekeyStore B) : List (PublicKey B) :=
  store.deprecatedPrekeys.map (·.publicKey)

def updateExpirationDate (store : PrekeyStore B) : PrekeyStore B :=
  { store with oldestExpirationDate := oldestOf store.active }

def updateDeprecatedExpirationDate (store : PrekeyStore B) : PrekeyStore B :=
  { store with oldestDeprecatedExpirationDate := oldestOf store.deprecatedPrekeys }

/-- `PrekeyStore::list`: the public keys one after the other. -/
def list (store : PrekeyStore B) : List B :=
  (store.active.map fun prekey => prekey.publicKey.bytes).flatten

/-- The first correction of `rotate`: the active prekeys expire too late. The cache is left
alone. -/
def correctPrekeys (store : PrekeyStore B) (currentTime : ℤ) : PrekeyStore B :=
  if currentTime + prekeyExpirationTime < store.oldestExpirationDate then
    { store with
      prekeys := fun index =>
        { store.prekeys index with expirationDate := currentTime + prekeyExpirationTime } }
  else store

/-- The second correction: the deprecated prekeys expire too late. -/
def correctDeprecatedPrekeys (store : PrekeyStore B) (currentTime : ℤ) : PrekeyStore B :=
  if currentTime + deprecatedPrekeyExpirationTime < store.oldestDeprecatedExpirationDate then
    { store with
      deprecatedPrekeys := store.deprecatedPrekeys.map fun prekey =>
        { prekey with expirationDate := currentTime + deprecatedPrekeyExpirationTime } }
  else store

/-- The loop of `rotate` that erases from the vector. After an erasure the index is
decremented before it is incremented, which leaves it as it was also at 0, where the
decrement of a `size_t` wraps around. -/
def eraseOutdated (currentTime : ℤ) (index : ℕ) (prekeys : List (Prekey B)) : List (Prekey B) :=
  if h : index < prekeys.length then
    if prekeys[index].expirationDate < currentTime then
      eraseOutdated currentTime index (prekeys.eraseIdx index)
    else eraseOutdated currentTime (index + 1) prekeys
  else prekeys
termination_by prekeys.length - index
decreasing_by
  · rw [List.length_eraseIdx_of_lt h]
    omega
  · omega

def removeOutdated (store : PrekeyStore B) (currentTime : ℤ) : PrekeyStore B :=
  if store.oldestDeprecatedExpirationDate < currentTime then
    updateDeprecatedExpirationDate
      { store with deprecatedPrekeys := eraseOutdated currentTime 0 store.deprecatedPrekeys }
  else store

/-- `PrekeyStore::exportProtobuf`: the active and the deprecated key pairs. -/
def exportProtobuf (store : PrekeyStore B) :
    Except Failure (List (ProtobufCPrekey B) × List (ProtobufCPrekey B)) := do
  let keypairs ← store.active.mapM Prekey.exportProtobuf
  let deprecatedKeypairs ← store.deprecatedPrekeys.mapM Prekey.exportProtobuf
  pure (keypairs, deprecatedKeypairs)

variable [Sodium B]

def generateKeys : (amount : ℕ) → World B → (Fin amount → Prekey B) × World B
  | 0, w => (Fin.elim0, w)
  | amount + 1, w =>
      match Prekey.generate w with
      | (prekey, w) =>
          match generateKeys amount w with
          | (prekeys, w) => (Fin.cons prekey prekeys, w)

def create (w : World B) : PrekeyStore B × World B :=
  match generateKeys prekeyAmount w with
  | (prekeys, w) => (updateExpirationDate ⟨0, 0, prekeys, []⟩, w)

def import_ (keypairs deprecatedKeypairs : List (ProtobufCPrekey B)) :
    Except Error (PrekeyStore B) :=
  if h : keypairs.length = prekeyAmount then do
    let prekeys ← Result.sequence fun i => Prekey.import_ (keypairs.get (i.cast h.symm))
    let deprecatedPrekeys ← deprecatedKeypairs.mapM Prekey.import_
    pure (updateDeprecatedExpirationDate
      (updateExpirationDate ⟨0, 0, prekeys, deprecatedPrekeys⟩))
  else .error (expectationFailed "lib/prekey-store.cpp")

/-- The date is written into the storage, and the two caches are refreshed, before the new
prekey takes the place of the old one. -/
def deprecate_ (store : PrekeyStore B) (index : Fin prekeyAmount) (w : World B) :
    PrekeyStore B × World B :=
  match w.now with
  | (time, w) =>
      let outdated := { store.prekeys index with
        expirationDate := time + deprecatedPrekeyExpirationTime }
      let store := { store with
        prekeys := Function.update store.prekeys index outdated
        deprecatedPrekeys := store.deprecatedPrekeys ++ [outdated] }
      let store := store.updateExpirationDate.updateDeprecatedExpirationDate
      match Prekey.generate w with
      | (prekey, w) => ({ store with prekeys := Function.update store.prekeys index prekey }, w)

def deprecateLoop (currentTime : ℤ) :
    List (Fin prekeyAmount) → PrekeyStore B → World B → PrekeyStore B × World B
  | [], store, w => (store, w)
  | index :: indices, store, w =>
      if (store.prekeys index).expirationDate < currentTime then
        match store.deprecate_ index w with
        | (store, w) => deprecateLoop currentTime indices store w
      else deprecateLoop currentTime indices store w

def deprecateOutdated (store : PrekeyStore B) (currentTime : ℤ) (w : World B) :
    PrekeyStore B × World B :=
  if store.oldestExpirationDate < currentTime then
    deprecateLoop currentTime (List.finRange prekeyAmount) store w
  else (store, w)

/-- `PrekeyStore::rotate`, which never fails. -/
def rotate (store : PrekeyStore B) (w : World B) : PrekeyStore B × World B :=
  match w.now with
  | (currentTime, w) =>
      let store := (store.correctPrekeys currentTime).correctDeprecatedPrekeys currentTime
      match store.deprecateOutdated currentTime w with
      | (store, w) => (store.removeOutdated currentTime, w)

variable [DecidableEq B]

def findPrekey (store : PrekeyStore B) (publicKey : PublicKey B) : Option (Fin prekeyAmount) :=
  (List.finRange prekeyAmount).find? fun index => publicKey = (store.prekeys index).publicKey

def getPrekey (store : PrekeyStore B) (publicKey : PublicKey B) (w : World B) :
    Except Error (PrivateKey B) × PrekeyStore B × World B :=
  match store.findPrekey publicKey with
  | some index =>
      match store.deprecate_ index w with
      | (store', w) => (.ok (store.prekeys index).privateKey, store', w)
  | none =>
      match store.deprecatedPrekeys.find? fun prekey => publicKey = prekey.publicKey with
      | some prekey => (.ok prekey.privateKey, store, w)
      | none => (.error ⟨.notFound, "No matching prekey found."⟩, store, w)

inductive Call (B : Type) where
  | getPrekey (publicKey : PublicKey B)
  | rotate

/-- What a call returns; `rotate` has nothing to return. -/
abbrev Outcome (B : Type) := Option (Except Error (PrivateKey B))

/-- One world goes through all calls: each of them reads on where the last one stopped. -/
def call (state : PrekeyStore B × World B) : Call B → Outcome B × PrekeyStore B × World B
  | .getPrekey publicKey =>
      match state.1.getPrekey publicKey state.2 with
      | (result, state) => (some result, state)
  | .rotate => (none, state.1.rotate state.2)

end PrekeyStore

section Oldest

theorem foldl_min_le (prekeys : List (Prekey B)) (date : ℤ) :
    prekeys.foldl (fun date other => min date other.expirationDate) date ≤ date ∧
      ∀ prekey ∈ prekeys,
        prekeys.foldl (fun date other => min date other.expirationDate) date ≤
          prekey.expirationDate := by
  induction prekeys generalizing date with
  | nil => simp
  | cons first prekeys ih =>
      obtain ⟨hdate, hmem⟩ := ih (min date first.expirationDate)
      rw [List.foldl_cons]
      refine ⟨hdate.trans (min_le_left _ _), ?_⟩
      intro prekey hprekey
      rcases List.mem_cons.mp hprekey with rfl | hprekey
      · exact hdate.trans (min_le_right _ _)
      · exact hmem prekey hprekey

theorem foldl_min_mem (prekeys : List (Prekey B)) (date : ℤ) :
    prekeys.foldl (fun date other => min date other.expirationDate) date = date ∨
      ∃ prekey ∈ prekeys,
        prekeys.foldl (fun date other => min date other.expirationDate) date =
          prekey.expirationDate := by
  induction prekeys generalizing date with
  | nil => exact .inl rfl
  | cons first prekeys ih =>
      rw [List.foldl_cons]
      rcases ih (min date first.expirationDate) with heq | ⟨prekey, hprekey, heq⟩
      · rcases min_choice date first.expirationDate with hmin | hmin
        · exact .inl (heq.trans hmin)
        · exact .inr ⟨first, List.mem_cons_self, heq.trans hmin⟩
      · exact .inr ⟨prekey, List.mem_cons_of_mem _ hprekey, heq⟩

theorem isLeast_oldestOf {prekeys : List (Prekey B)} (h : prekeys ≠ []) :
    IsLeast {date | ∃ prekey ∈ prekeys, prekey.expirationDate = date} (oldestOf prekeys) := by
  cases prekeys with
  | nil => exact absurd rfl h
  | cons first prekeys =>
      obtain ⟨hfirst, hrest⟩ := foldl_min_le prekeys first.expirationDate
      constructor
      · rcases foldl_min_mem prekeys first.expirationDate with heq | ⟨prekey, hprekey, heq⟩
        · exact ⟨first, List.mem_cons_self, heq.symm⟩
        · exact ⟨prekey, List.mem_cons_of_mem _ hprekey, heq.symm⟩
      · rintro date ⟨prekey, hprekey, rfl⟩
        rcases List.mem_cons.mp hprekey with rfl | hprekey
        · exact hfirst
        · exact hrest prekey hprekey

theorem oldestOf_le {prekeys : List (Prekey B)} {prekey : Prekey B} (h : prekey ∈ prekeys) :
    oldestOf prekeys ≤ prekey.expirationDate :=
  (isLeast_oldestOf (List.ne_nil_of_mem h)).2 ⟨prekey, h, rfl⟩

end Oldest

namespace PrekeyStore

theorem mem_activeKeys {store : PrekeyStore B} {publicKey : PublicKey B} :
    publicKey ∈ store.activeKeys ↔ ∃ index, (store.prekeys index).publicKey = publicKey := by
  simp [activeKeys, active]

theorem mem_deprecatedKeys {store : PrekeyStore B} {publicKey : PublicKey B} :
    publicKey ∈ store.deprecatedKeys ↔
      ∃ prekey ∈ store.deprecatedPrekeys, prekey.publicKey = publicKey := by
  simp [deprecatedKeys]

theorem take_drop_flatten {n : ℕ} {chunks : List (List B)} (h : ∀ chunk ∈ chunks, chunk.length = n)
    {i : ℕ} (hi : i < chunks.length) :
    (chunks.flatten.drop (n * i)).take n = chunks[i] := by
  induction chunks generalizing i with
  | nil => exact absurd hi (Nat.not_lt_zero i)
  | cons chunk chunks ih =>
      have hchunk : chunk.length = n := h chunk List.mem_cons_self
      cases i with
      | zero =>
          rw [Nat.mul_zero, List.drop_zero, List.flatten_cons, List.take_left' hchunk]
          rfl
      | succ i =>
          have hskip : n * (i + 1) = chunk.length + n * i := by
            rw [hchunk, Nat.mul_succ, Nat.add_comm]
          rw [List.flatten_cons, hskip, List.drop_length_add_append]
          exact ih (fun chunk hmem => h chunk (List.mem_cons_of_mem _ hmem))
            (Nat.lt_of_succ_lt_succ hi)

theorem length_list (store : PrekeyStore B) : store.list.length = 32 * prekeyAmount := by
  have hsum : ∀ prekeys : List (Prekey B),
      (prekeys.map fun prekey => prekey.publicKey.bytes).flatten.length = 32 * prekeys.length := by
    intro prekeys
    induction prekeys with
    | nil => rfl
    | cons prekey prekeys ih =>
        rw [List.map_cons, List.flatten_cons, List.length_append, ih,
          prekey.publicKey.length_bytes, List.length_cons]
        ring
  rw [list, hsum, active, List.length_ofFn]

theorem take_drop_list (store : PrekeyStore B) (index : Fin prekeyAmount) :
    (store.list.drop (32 * index)).take 32 = (store.prekeys index).publicKey.bytes := by
  have hlength : ∀ chunk ∈ store.active.map fun prekey => prekey.publicKey.bytes,
      chunk.length = 32 := by
    intro chunk hchunk
    obtain ⟨prekey, -, rfl⟩ := List.mem_map.mp hchunk
    exact prekey.publicKey.length_bytes
  have hindex : (index : ℕ) < (store.active.map fun prekey => prekey.publicKey.bytes).length := by
    rw [List.length_map, active, List.length_ofFn]
    exact index.isLt
  rw [list, take_drop_flatten hlength hindex, List.getElem_map]
  simp [active]

theorem getPrekey_of_findPrekey [Sodium B] [DecidableEq B] {store : PrekeyStore B}
    {publicKey : PublicKey B} {index : Fin prekeyAmount}
    (h : store.findPrekey publicKey = some index) (w : World B) :
    store.getPrekey publicKey w =
      (.ok (store.prekeys index).privateKey, store.deprecate_ index w) := by
  rw [getPrekey, h]

theorem getPrekey_of_findPrekey_none [Sodium B] [DecidableEq B] {store : PrekeyStore B}
    {publicKey : PublicKey B} (h : store.findPrekey publicKey = none) (w : World B) :
    (store.getPrekey publicKey w).2 = (store, w) := by
  rw [getPrekey, h]
  simp only
  split
  · rfl
  · rfl

theorem getPrekey_cases [Sodium B] [DecidableEq B] (store : PrekeyStore B)
    (publicKey : PublicKey B) (w : World B) :
    (∃ index, (store.prekeys index).publicKey = publicKey ∧ store.getPrekey publicKey w =
      (.ok (store.prekeys index).privateKey, store.deprecate_ index w)) ∨
    (publicKey ∉ store.activeKeys ∧ ∃ prekey ∈ store.deprecatedPrekeys,
      prekey.publicKey = publicKey ∧
        store.getPrekey publicKey w = (.ok prekey.privateKey, store, w)) ∨
    (publicKey ∉ store.activeKeys ∧ publicKey ∉ store.deprecatedKeys ∧
      store.getPrekey publicKey w =
        (.error ⟨.notFound, "No matching prekey found."⟩, store, w)) := by
  rw [getPrekey]
  cases hactive : store.findPrekey publicKey with
  | some index =>
      have hindex := List.find?_some hactive
      exact .inl ⟨index, (of_decide_eq_true hindex).symm, rfl⟩
  | none =>
      have hnot : publicKey ∉ store.activeKeys := by
        rw [mem_activeKeys]
        rintro ⟨index, rfl⟩
        simpa using List.find?_eq_none.mp hactive index (List.mem_finRange index)
      right
      cases hdeprecated : store.deprecatedPrekeys.find?
          fun prekey => decide (publicKey = prekey.publicKey) with
      | some prekey =>
          have hkey := List.find?_some hdeprecated
          exact .inl ⟨hnot, prekey, List.mem_of_find?_eq_some hdeprecated,
            (of_decide_eq_true hkey).symm, rfl⟩
      | none =>
          refine .inr ⟨hnot, ?_, rfl⟩
          rw [mem_deprecatedKeys]
          rintro ⟨prekey, hprekey, rfl⟩
          simpa using List.find?_eq_none.mp hdeprecated prekey hprekey

theorem getPrekey_eq_notFound [Sodium B] [DecidableEq B] {store : PrekeyStore B}
    {publicKey : PublicKey B} (hactive : publicKey ∉ store.activeKeys)
    (hdeprecated : publicKey ∉ store.deprecatedKeys) (w : World B) :
    (store.getPrekey publicKey w).1 = .error ⟨.notFound, "No matching prekey found."⟩ := by
  rcases store.getPrekey_cases publicKey w with
    ⟨index, hkey, -⟩ | ⟨-, prekey, hprekey, hkey, -⟩ | ⟨-, -, heq⟩
  · exact absurd (mem_activeKeys.mpr ⟨index, hkey⟩) hactive
  · exact absurd (mem_deprecatedKeys.mpr ⟨prekey, hprekey, hkey⟩) hdeprecated
  · rw [heq]

theorem eraseOutdated_eq (currentTime : ℤ) (index : ℕ) (prekeys : List (Prekey B)) :
    eraseOutdated currentTime index prekeys = prekeys.take index ++
      (prekeys.drop index).filter fun prekey => !decide (prekey.expirationDate < currentTime) := by
  fun_induction eraseOutdated currentTime index prekeys with
  | case1 index prekeys h hout ih =>
      rw [ih, List.drop_eq_getElem_cons h, List.filter_cons_of_neg (by simpa using hout),
        List.eraseIdx_eq_take_drop_succ]
      simp [h.le]
  | case2 index prekeys h hout ih =>
      rw [ih, List.drop_eq_getElem_cons h, List.filter_cons_of_pos (by simpa using hout),
        List.take_succ_eq_append_getElem h, List.append_assoc]
      rfl
  | case3 index prekeys h =>
      rw [List.take_of_length_le (not_lt.mp h), List.drop_eq_nil_of_le (not_lt.mp h)]
      simp

theorem removeOutdated_eq (store : PrekeyStore B) (currentTime : ℤ) :
    store.removeOutdated currentTime =
      if store.oldestDeprecatedExpirationDate < currentTime then
        updateDeprecatedExpirationDate { store with
          deprecatedPrekeys := store.deprecatedPrekeys.filter
            fun prekey => !decide (prekey.expirationDate < currentTime) }
      else store := by
  simp [removeOutdated, eraseOutdated_eq]

section Steps

variable [Sodium B]

theorem rotate_eq (store : PrekeyStore B) (w : World B) :
    store.rotate w =
      ((((store.correctPrekeys (w.clock 0)).correctDeprecatedPrekeys
          (w.clock 0)).deprecateOutdated (w.clock 0) w.now.2).1.removeOutdated (w.clock 0),
        (((store.correctPrekeys (w.clock 0)).correctDeprecatedPrekeys
          (w.clock 0)).deprecateOutdated (w.clock 0) w.now.2).2) :=
  rfl

/-- What `deprecate` leaves at the place and in the caches. -/
theorem deprecate_eq (store : PrekeyStore B) (index : Fin prekeyAmount) (w : World B) :
    store.deprecate_ index w =
      let outdated := { store.prekeys index with
        expirationDate := w.clock 0 + deprecatedPrekeyExpirationTime }
      ({ oldestExpirationDate :=
          oldestOf (List.ofFn (Function.update store.prekeys index outdated))
         oldestDeprecatedExpirationDate := oldestOf (store.deprecatedPrekeys ++ [outdated])
         prekeys := Function.update store.prekeys index
          ⟨Sodium.cryptoScalarmultBase (w.random 0 32), w.random 0 32,
            w.clock 1 + prekeyExpirationTime⟩
         deprecatedPrekeys := store.deprecatedPrekeys ++ [outdated] },
        { w with
          clock := fun i => w.clock (i + 2)
          random := fun i => w.random (i + 1) }) := by
  simp only [deprecate_, World.now, Prekey.generate, cryptoBoxKeypair, World.randombytesBuf,
    updateExpirationDate, updateDeprecatedExpirationDate, active, Function.update_idem]

theorem generateKeys_eq (amount : ℕ) (w : World B) :
    generateKeys amount w = (fun place => ⟨Sodium.cryptoScalarmultBase (w.random place 32),
        w.random place 32, w.clock place + prekeyExpirationTime⟩,
      { w with
        clock := fun i => w.clock (i + amount)
        random := fun i => w.random (i + amount) }) := by
  induction amount generalizing w with
  | zero => exact Prod.ext (funext fun place => place.elim0) rfl
  | succ amount ih =>
      simp only [generateKeys, Prekey.generate, cryptoBoxKeypair, World.randombytesBuf,
        World.now, ih]
      refine Prod.ext (funext fun place => ?_) ?_
      · refine Fin.cases ?_ (fun place => ?_) place
        · rfl
        · rfl
      · simp only [World.mk.injEq, and_true]
        exact ⟨funext fun i => congrArg w.clock (by omega),
          funext fun i => congrArg w.random (by omega)⟩

theorem create_eq (w : World B) :
    create w = (updateExpirationDate ⟨0, 0,
        fun place => ⟨Sodium.cryptoScalarmultBase (w.random place 32), w.random place 32,
          w.clock place + prekeyExpirationTime⟩, []⟩,
      { w with
        clock := fun i => w.clock (i + prekeyAmount)
        random := fun i => w.random (i + prekeyAmount) }) := by
  rw [create, generateKeys_eq]

end Steps

end PrekeyStore

end Molch
