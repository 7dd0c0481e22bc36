import Molch.KeyAge
import Molch.SkippedKeys

namespace Molch

/-- The first readings of the clock, in whatever order they are, lie less than a month
apart. -/
def World.ReadingsClose {B : Type} (w : World B) (readings : ℕ) : Prop :=
  ∀ i < readings, ∀ j < readings, w.clock i - w.clock j < month

theorem World.ReadingsClose.shift {B : Type} {w w' : World B} {readings n : ℕ}
    (h : w.ReadingsClose readings) (hw : ∀ i, w'.clock i = w.clock (i + n)) {readings' : ℕ}
    (hle : readings' + n ≤ readings) : w'.ReadingsClose readings' := by
  intro i hi j hj
  rw [hw, hw]
  exact h (i + n) (by omega) (j + n) (by omega)

variable {B : Type} [Byte B] [Sodium B]

def skippedPairs (headerKey : EmptyableHeaderKey B) (chainKey : ChainKey B) (count : ℕ) :
    List (EmptyableHeaderKey B × MessageKey B) :=
  (List.range count).map fun i => (headerKey, (chainKey.advance i).messageKey)

theorem skippedPairs_succ (headerKey : EmptyableHeaderKey B) (chainKey : ChainKey B)
    (count : ℕ) :
    skippedPairs headerKey chainKey (count + 1) =
      (headerKey, chainKey.messageKey) :: skippedPairs headerKey chainKey.nextChainKey count := by
  rw [skippedPairs, List.range_succ_eq_map, List.map_cons, List.map_map]
  rfl

section Loop

theorem length_stageKeysPuts_le (headerKey : EmptyableHeaderKey B) (count : ℕ)
    (chainKey : EmptyableChainKey B) (w : World B) :
    (stageKeysPuts headerKey count chainKey w).length ≤ count := by
  induction count generalizing chainKey w with
  | zero => exact le_rfl
  | succ count ih =>
      rw [stageKeysPuts]
      cases chainKey.deriveMessageKey with
      | error e => exact Nat.zero_le _
      | ok messageKey =>
          cases chainKey.deriveChainKey with
          | error e => simp
          | ok nextChainKey => simpa using ih nextChainKey w.now.2.now.2

theorem stageKeysPuts_pairs (headerKey : EmptyableHeaderKey B) (count : ℕ)
    (chainKey : ChainKey B) (w : World B) :
    (stageKeysPuts headerKey count (.ofKey chainKey) w).map
        (fun put => (put.1.headerKey, put.1.messageKey)) =
      skippedPairs headerKey chainKey count := by
  induction count generalizing chainKey w with
  | zero => rfl
  | succ count ih =>
      rw [stageKeysPuts, EmptyableKey.deriveMessageKey_ofKey]
      simp only [EmptyableKey.deriveChainKey_ofKey, List.map_cons]
      rw [ih, skippedPairs_succ]

theorem clock_stageKeys (headerKey : EmptyableHeaderKey B) (count : ℕ)
    (chainKey : EmptyableChainKey B) (staged : HeaderAndMessageKeyStore B) (w : World B)
    (i : ℕ) :
    (stageKeys headerKey count chainKey staged w).2.2.clock i =
      w.clock (i + 2 * (stageKeysPuts headerKey count chainKey w).length) := by
  induction count generalizing chainKey staged w i with
  | zero => rfl
  | succ count ih =>
      have hworld : ∀ messageKey, (staged.add headerKey messageKey w).2 = w.now.2.now.2 :=
        fun _ => HeaderAndMessageKeyStore.addKey_world _ _ _
      rw [stageKeys, stageKeysPuts]
      cases chainKey.deriveMessageKey with
      | error e => rfl
      | ok messageKey =>
          simp only [hworld, List.length_cons]
          cases chainKey.deriveChainKey with
          | error e => rfl
          | ok nextChainKey =>
              rw [ih]
              rfl

/-- As long as there is room and the clock does not jump, all that the loop puts is stored and
nothing is dropped for it. -/
theorem stageKeys_perm (headerKey : EmptyableHeaderKey B) (count : ℕ)
    (chainKey : EmptyableChainKey B) {staged : HeaderAndMessageKeyStore B} {w : World B}
    (hclose : w.ReadingsClose (2 * (stageKeysPuts headerKey count chainKey w).length))
    (hroom : staged.keys.length + (stageKeysPuts headerKey count chainKey w).length ≤
      maximumKeys) :
    (stageKeys headerKey count chainKey staged w).2.1.keys.Perm
      (staged.keys ++ (stageKeysPuts headerKey count chainKey w).map Prod.fst) := by
  induction count generalizing chainKey staged w with
  | zero => simp [stageKeys, stageKeysPuts]
  | succ count ih =>
      rw [stageKeysPuts] at hclose hroom ⊢
      rw [stageKeys]
      cases hmessage : chainKey.deriveMessageKey with
      | error e => simp
      | ok messageKey =>
          simp only [hmessage, List.length_cons] at hclose hroom ⊢
          have hadd : (staged.add headerKey messageKey w).1.keys.Perm
              (⟨headerKey, messageKey, w.now.1 + maximumAge⟩ :: staged.keys) := by
            refine HeaderAndMessageKeyStore.addKey_perm staged _ w.now.2 ?_ (by omega)
            have hpair := hclose 1 (by omega) 0 (by omega)
            have hmonth : 0 < month := by decide
            change decide (w.clock 0 + month ≤ w.clock 1 - month) = false
            exact decide_eq_false (by omega)
          cases hchain : chainKey.deriveChainKey with
          | error e =>
              rw [List.map_cons, List.map_nil]
              exact hadd.trans (List.perm_append_singleton _ _).symm
          | ok nextChainKey =>
              simp only [hchain] at hclose hroom ⊢
              have hworld : (staged.add headerKey messageKey w).2 = w.now.2.now.2 :=
                HeaderAndMessageKeyStore.addKey_world _ _ _
              have hlength := hadd.length_eq
              rw [List.length_cons] at hlength
              have hroom' : (staged.add headerKey messageKey w).1.keys.length +
                  (stageKeysPuts headerKey count nextChainKey w.now.2.now.2).length ≤
                    maximumKeys := by omega
              have hrest := ih nextChainKey
                (hclose.shift (n := 2) (fun _ => rfl) (by omega)) hroom'
              rw [hworld, List.map_cons]
              refine hrest.trans ((hadd.append_right _).trans ?_)
              exact List.perm_middle.symm

end Loop

section Staging

variable [Platform]

theorem length_stagePuts_le (headerKey : EmptyableHeaderKey B) (current future : UInt32)
    (chainKey : EmptyableChainKey B) (w : World B) :
    (stagePuts headerKey current future chainKey w).length ≤ 500 := by
  rw [stagePuts]
  split
  · exact Nat.zero_le _
  · rename_i hstaged
    have hskip := (not_or.mp hstaged).2
    have hle := toNat_le_of_tooManySkipped (Bool.eq_false_of_not_eq_true hskip)
    have hputs := length_stageKeysPuts_le headerKey (future.toNat - current.toNat) chainKey w
    rw [maximumSkippedMessages] at hle
    omega

theorem stage_perm (staged : HeaderAndMessageKeyStore B) (output : Bool)
    (headerKey : EmptyableHeaderKey B) (current future : UInt32)
    (chainKey : EmptyableChainKey B) {w : World B}
    (hclose : w.ReadingsClose (2 * (stagePuts headerKey current future chainKey w).length))
    (hroom : staged.keys.length + (stagePuts headerKey current future chainKey w).length ≤
      maximumKeys) :
    (stageSkippedHeaderAndMessageKeys staged output headerKey current future chainKey
        w).2.1.keys.Perm
      (staged.keys ++ (stagePuts headerKey current future chainKey w).map Prod.fst) := by
  rw [stageSkippedHeaderAndMessageKeys_staged]
  rw [stagePuts] at hclose hroom ⊢
  split
  · simp
  · rename_i hstaged
    rw [if_neg hstaged] at hclose hroom
    exact stageKeys_perm headerKey _ chainKey hclose hroom

theorem clock_stage (staged : HeaderAndMessageKeyStore B) (output : Bool)
    (headerKey : EmptyableHeaderKey B) (current future : UInt32)
    (chainKey : EmptyableChainKey B) (w : World B) (i : ℕ) :
    (stageSkippedHeaderAndMessageKeys staged output headerKey current future chainKey
        w).2.2.clock i =
      w.clock (i + 2 * (stagePuts headerKey current future chainKey w).length) := by
  have hloop := clock_stageKeys headerKey (future.toNat - current.toNat) chainKey staged w i
  unfold stageSkippedHeaderAndMessageKeys stagePuts
  cases chainKey.isNone with
  | true => rfl
  | false =>
      cases tooManySkipped current future with
      | true => rfl
      | false =>
          simp only [Bool.false_eq_true, if_false, or_self]
          generalize stageKeys headerKey (future.toNat - current.toNat) chainKey staged w =
            looped at hloop ⊢
          rcases looped with ⟨_ | currentChainKey, staged', w'⟩
          · exact hloop
          · simp only
            cases output with
            | false => exact hloop
            | true =>
                simp only [if_true]
                cases currentChainKey.deriveMessageKey with
                | error e => exact hloop
                | ok messageKey =>
                    simp only
                    cases currentChainKey.deriveChainKey <;> exact hloop

end Staging

namespace Ratchet

variable [Platform] {ratchet : Ratchet B}

/-- What a message on a new chain puts into the staging area: the rest of the chain before it
and the beginning of its own. -/
def nextChainPuts (ratchet : Ratchet B) (ephemeral : PublicKey B)
    (number previousNumber : UInt32) (w : World B) : List (Put B) :=
  stagePuts ratchet.receiveHeaderKey ratchet.receiveMessageNumber previousNumber
      ratchet.receiveChainKey w ++
    match stageSkippedHeaderAndMessageKeys ratchet.stagedHeaderAndMessageKeys false
        ratchet.receiveHeaderKey ratchet.receiveMessageNumber previousNumber
        ratchet.receiveChainKey w with
    | (.error _, _, _) => []
    | (.ok _, _, w) =>
        match deriveRootNextHeaderAndChainKeys ratchet.ourPrivateEphemeral
            ratchet.ourPublicEphemeral ephemeral ratchet.rootKey ratchet.role with
        | .error _ => []
        | .ok derived =>
            stagePuts ratchet.nextReceiveHeaderKey 0 number (.ofKey derived.chainKey) w

theorem receivePuts_eq (ratchet : Ratchet B) (ephemeral : PublicKey B)
    (number previousNumber : UInt32) (w : World B) :
    ratchet.receivePuts ephemeral number previousNumber w =
      if !ratchet.receivedValid then []
      else if ratchet.headerDecryptable = .notTried then []
      else if ratchet.onCurrentChain then
        stagePuts ratchet.receiveHeaderKey ratchet.receiveMessageNumber number
          ratchet.receiveChainKey w
      else if ratchet.ratchetFlag ∨ ratchet.headerDecryptable ≠ .nextDecryptable then []
      else ratchet.nextChainPuts ephemeral number previousNumber w :=
  rfl

theorem length_nextChainPuts_le (ratchet : Ratchet B) (ephemeral : PublicKey B)
    (number previousNumber : UInt32) (w : World B) :
    (ratchet.nextChainPuts ephemeral number previousNumber w).length ≤ 500 + 500 := by
  have hfirst := length_stagePuts_le ratchet.receiveHeaderKey ratchet.receiveMessageNumber
    previousNumber ratchet.receiveChainKey w
  rw [nextChainPuts, List.length_append]
  split
  · exact hfirst.trans (by omega)
  · split
    · exact hfirst.trans (by omega)
    · exact Nat.add_le_add hfirst (length_stagePuts_le _ _ _ _ _)

theorem length_receivePuts_le (ratchet : Ratchet B) (ephemeral : PublicKey B)
    (number previousNumber : UInt32) (w : World B) :
    (ratchet.receivePuts ephemeral number previousNumber w).length ≤ 1000 := by
  rw [receivePuts_eq]
  split
  · exact Nat.zero_le _
  · split
    · exact Nat.zero_le _
    · split
      · exact (length_stagePuts_le _ _ _ _ _).trans (by omega)
      · split
        · exact Nat.zero_le _
        · exact ratchet.length_nextChainPuts_le ephemeral number previousNumber w

theorem receiveCurrentChain_perm {number : UInt32} {w : World B}
    (hclose : w.ReadingsClose (2 * (stagePuts ratchet.receiveHeaderKey
      ratchet.receiveMessageNumber number ratchet.receiveChainKey w).length))
    (hroom : ratchet.stagedHeaderAndMessageKeys.keys.length +
      (stagePuts ratchet.receiveHeaderKey ratchet.receiveMessageNumber number
        ratchet.receiveChainKey w).length ≤ maximumKeys) :
    (ratchet.receiveCurrentChain number w).2.1.stagedHeaderAndMessageKeys.keys.Perm
      (ratchet.stagedHeaderAndMessageKeys.keys ++ (stagePuts ratchet.receiveHeaderKey
        ratchet.receiveMessageNumber number ratchet.receiveChainKey w).map Prod.fst) := by
  have hperm := stage_perm ratchet.stagedHeaderAndMessageKeys true ratchet.receiveHeaderKey
    ratchet.receiveMessageNumber number ratchet.receiveChainKey hclose hroom
  simp only [receiveCurrentChain]
  generalize stageSkippedHeaderAndMessageKeys ratchet.stagedHeaderAndMessageKeys true
    ratchet.receiveHeaderKey ratchet.receiveMessageNumber number ratchet.receiveChainKey w =
    result at hperm ⊢
  rcases result with ⟨_ | _ | _, staged, w'⟩
  all_goals exact hperm

theorem receiveNextChain_perm {ephemeral : PublicKey B} {number previousNumber : UInt32}
    {w : World B}
    (hclose : w.ReadingsClose
      (2 * (ratchet.nextChainPuts ephemeral number previousNumber w).length))
    (hroom : ratchet.stagedHeaderAndMessageKeys.keys.length +
      (ratchet.nextChainPuts ephemeral number previousNumber w).length ≤ maximumKeys) :
    (ratchet.receiveNextChain ephemeral number previousNumber
      w).2.1.stagedHeaderAndMessageKeys.keys.Perm
      (ratchet.stagedHeaderAndMessageKeys.keys ++
        (ratchet.nextChainPuts ephemeral number previousNumber w).map Prod.fst) := by
  rw [nextChainPuts, List.length_append] at hclose hroom
  have hfirst := stage_perm ratchet.stagedHeaderAndMessageKeys false
    ratchet.receiveHeaderKey ratchet.receiveMessageNumber previousNumber
    ratchet.receiveChainKey (hclose.shift (n := 0) (fun _ => rfl) (by omega)) (by omega)
  have hclock := clock_stage ratchet.stagedHeaderAndMessageKeys false
    ratchet.receiveHeaderKey ratchet.receiveMessageNumber previousNumber
    ratchet.receiveChainKey w
  rw [nextChainPuts]
  simp only [receiveNextChain]
  generalize stagePuts ratchet.receiveHeaderKey ratchet.receiveMessageNumber
    previousNumber ratchet.receiveChainKey w = puts at *
  generalize stageSkippedHeaderAndMessageKeys ratchet.stagedHeaderAndMessageKeys false
    ratchet.receiveHeaderKey ratchet.receiveMessageNumber previousNumber
    ratchet.receiveChainKey w = result at *
  rcases result with ⟨_ | _, staged, w'⟩
  · simpa using hfirst
  · simp only at hclose hroom hfirst hclock ⊢
    cases hderived : deriveRootNextHeaderAndChainKeys ratchet.ourPrivateEphemeral
        ratchet.ourPublicEphemeral ephemeral ratchet.rootKey ratchet.role with
    | error e => simpa using hfirst
    | ok derived =>
        simp only [hderived] at hclose hroom ⊢
        have hlength := hfirst.length_eq
        rw [List.length_append, List.length_map] at hlength
        have hsecond := stage_perm staged true ratchet.nextReceiveHeaderKey 0 number
          (.ofKey derived.chainKey) (hclose.shift hclock (by omega)) (by omega)
        generalize stagePuts ratchet.nextReceiveHeaderKey 0 number
          (.ofKey derived.chainKey) w' = puts' at hsecond ⊢
        generalize stageSkippedHeaderAndMessageKeys staged true
          ratchet.nextReceiveHeaderKey 0 number (.ofKey derived.chainKey) w' =
          result at hsecond ⊢
        rw [List.map_append, ← List.append_assoc]
        rcases result with ⟨_ | _ | _, staged', w''⟩
        all_goals exact hsecond.trans (hfirst.append_right _)

theorem receive_perm {ephemeral : PublicKey B} {number previousNumber : UInt32} {w : World B}
    (hclose : w.ReadingsClose
      (2 * (ratchet.receivePuts ephemeral number previousNumber w).length))
    (hroom : ratchet.stagedHeaderAndMessageKeys.keys.length +
      (ratchet.receivePuts ephemeral number previousNumber w).length ≤ maximumKeys) :
    (ratchet.receive ephemeral number previousNumber w).2.1.stagedHeaderAndMessageKeys.keys.Perm
      (ratchet.stagedHeaderAndMessageKeys.keys ++
        (ratchet.receivePuts ephemeral number previousNumber w).map Prod.fst) := by
  have hnothing : ratchet.stagedHeaderAndMessageKeys.keys.Perm
      (ratchet.stagedHeaderAndMessageKeys.keys ++ ([] : List (Put B)).map Prod.fst) := by
    rw [List.map_nil, List.append_nil]
  rw [receivePuts_eq] at hclose hroom
  rw [receive, receivePuts_eq]
  split
  · exact hnothing
  · rename_i hvalid
    rw [if_neg hvalid] at hclose hroom
    split
    · exact hnothing
    · rename_i htried
      rw [if_neg htried] at hclose hroom
      split
      · rename_i hcurrent
        rw [if_pos hcurrent] at hclose hroom
        exact receiveCurrentChain_perm hclose hroom
      · rename_i hcurrent
        rw [if_neg hcurrent] at hclose hroom
        split
        · exact hnothing
        · rename_i hnext
          rw [if_neg hnext] at hclose hroom
          exact receiveNextChain_perm hclose hroom

end Ratchet

section Exactness

variable [Platform]

theorem tooManySkipped_iff (hbits : Platform.sizeBits = 64) (current future : UInt32) :
    tooManySkipped current future = true ↔ current.toNat + 500 < future.toNat := by
  have hlt : current.toNat < 2 ^ 32 := current.toNat_lt
  rw [tooManySkipped, decide_eq_true_eq, maximumSkippedMessages, hbits,
    Nat.mod_eq_of_lt (by omega)]

/-- Staging fails beyond the limit and then changes nothing. Within it the keys of the skipped
positions are added to what there was, and the outputs are those of the next position. -/
structure StagesExactly (store : HeaderAndMessageKeyStore B) (output : Bool)
    (headerKey : EmptyableHeaderKey B) (current future : UInt32)
    (chainKey : EmptyableChainKey B) (w : World B) : Prop where
  fails : (∃ error, (stageSkippedHeaderAndMessageKeys store output headerKey current future
    chainKey w).1 = .error error) ↔ current.toNat + 500 < future.toNat
  untouched : current.toNat + 500 < future.toNat →
    stageSkippedHeaderAndMessageKeys store output headerKey current future chainKey w =
      (.error tooManySkippedError, store, w)
  outputs : future.toNat ≤ current.toNat + 500 →
    let count := future.toNat - current.toNat
    (stageSkippedHeaderAndMessageKeys store output headerKey current future chainKey w).1 =
      .ok (if output then some (.ofKey (chainKey.key.advance (count + 1)),
        (chainKey.key.advance count).messageKey) else none)
  gains : future.toNat ≤ current.toNat + 500 → ∃ skipped : List (HeaderAndMessageKey B),
    skipped.map (fun key => (key.headerKey, key.messageKey)) =
      skippedPairs headerKey chainKey.key (future.toNat - current.toNat) ∧
    (stageSkippedHeaderAndMessageKeys store output headerKey current future chainKey
      w).2.1.keys.Perm (store.keys ++ skipped)

theorem stagesExactly (hbits : Platform.sizeBits = 64) {store : HeaderAndMessageKeyStore B}
    (output : Bool) (headerKey : EmptyableHeaderKey B) {current future : UInt32}
    {chainKey : EmptyableChainKey B} {w : World B} (hchain : chainKey.isNone = false)
    (hsize : store.keys.length ≤ 500)
    (hclose : w.ReadingsClose (2 * (future.toNat - current.toNat))) :
    StagesExactly store output headerKey current future chainKey w := by
  have hkey := EmptyableKey.eq_ofKey (EmptyableKey.empty_eq_false_of_isNone hchain)
  cases hskip : tooManySkipped current future with
  | true =>
      have hlt := (tooManySkipped_iff hbits current future).mp hskip
      have hresult := stageSkippedHeaderAndMessageKeys_tooManySkipped hchain hskip store output
        headerKey w
      exact
        { fails := iff_of_true ⟨_, congrArg Prod.fst hresult⟩ hlt
          untouched := fun _ => hresult
          outputs := fun hle => absurd hlt (not_lt.mpr hle)
          gains := fun hle => absurd hlt (not_lt.mpr hle) }
  | false =>
      have hle : future.toNat ≤ current.toNat + 500 := toNat_le_of_tooManySkipped hskip
      have hresult := stageSkippedHeaderAndMessageKeys_eq hchain hskip store output headerKey w
      have hputs : stagePuts headerKey current future chainKey w =
          stageKeysPuts headerKey (future.toNat - current.toNat) chainKey w := by
        rw [stagePuts, hchain, hskip]
        rfl
      have hlength := length_stageKeysPuts_le headerKey (future.toNat - current.toNat) chainKey w
      have hperm := stage_perm store output headerKey current future chainKey (w := w)
        (by rw [hputs]; exact hclose.shift (n := 0) (fun _ => rfl) (by omega))
        (by rw [hputs, maximumKeys]; omega)
      refine
        { fails := iff_of_false ?_ (not_lt.mpr hle)
          untouched := fun hlt => absurd hlt (not_lt.mpr hle)
          outputs := fun _ => congrArg Prod.fst hresult
          gains := fun _ => ⟨_, ?_, hperm⟩ }
      · rintro ⟨error, herror⟩
        rw [hresult] at herror
        cases herror
      · rw [hputs, List.map_map, hkey]
        exact stageKeysPuts_pairs headerKey _ chainKey.key w

/-- Staging derives exactly the skipped keys, and one message never fills the staging area. -/
theorem staging_exact (hbits : Platform.sizeBits = 64) :
    (∀ (store : HeaderAndMessageKeyStore B) (output : Bool) (headerKey : EmptyableHeaderKey B)
        (current future : UInt32) (chainKey : EmptyableChainKey B) (w : World B),
      chainKey.isNone = false → store.keys.length ≤ 500 →
      w.ReadingsClose (2 * (future.toNat - current.toNat)) →
      StagesExactly store output headerKey current future chainKey w) ∧
    ∀ (ratchet : Ratchet B) (ephemeral : PublicKey B) (number previousNumber : UInt32)
        (w : World B),
      ratchet.stagedHeaderAndMessageKeys = .clear →
      w.ReadingsClose (2 * (ratchet.receivePuts ephemeral number previousNumber w).length) →
      let staged := (ratchet.receive ephemeral number previousNumber
        w).2.1.stagedHeaderAndMessageKeys
      staged.keys.length ≤ 1000 ∧
        staged.keys.Perm
          ((ratchet.receivePuts ephemeral number previousNumber w).map Prod.fst) := by
  refine ⟨fun _ output headerKey _ _ _ _ hchain hsize hclose =>
    stagesExactly hbits output headerKey hchain hsize hclose, ?_⟩
  intro ratchet ephemeral number previousNumber w hempty hclose staged
  have hputs := ratchet.length_receivePuts_le ephemeral number previousNumber w
  have hperm := Ratchet.receive_perm hclose (by
    rw [hempty]
    simpa [HeaderAndMessageKeyStore.clear, maximumKeys] using hputs)
  rw [hempty] at hperm
  refine ⟨?_, hperm⟩
  have hlength := hperm.length_eq
  rw [HeaderAndMessageKeyStore.clear, List.nil_append, List.length_map] at hlength
  exact hlength.trans_le hputs

end Exactness

namespace Symbolic

/-- A ratchet on a chain of which no message has come. -/
def waiting : Ratchet ℕ :=
  { Ratchet.init with
    receivedValid := true
    headerDecryptable := .currentDecryptable
    receiveHeaderKey := .ofKey (carry 32 1)
    receiveChainKey := .ofKey (carry 32 1) }

/-- An hour passes with every reading. -/
def hourlyWorld : World ℕ := { world with clock := fun i => 3600 * i }

theorem readingsClose_hourlyWorld : hourlyWorld.ReadingsClose 6 := by
  intro i hi j _
  have hmonth : month = 2678400 := rfl
  simp only [hourlyWorld, hmonth]
  omega

theorem length_receivePuts_waiting :
    (waiting.receivePuts Key.zero 3 0 hourlyWorld).length = 3 := rfl

/-- Three messages are skipped, first with keys in the staging area, then by a whole receive. -/
theorem staging_exact_waiting :
    StagesExactly ⟨[datedKey 1, datedKey 3]⟩ true waiting.receiveHeaderKey 0 3
        waiting.receiveChainKey hourlyWorld ∧
      (let staged := (waiting.receive Key.zero 3 0 hourlyWorld).2.1.stagedHeaderAndMessageKeys
      staged.keys.length ≤ 1000 ∧
        staged.keys.Perm ((waiting.receivePuts Key.zero 3 0 hourlyWorld).map Prod.fst)) := by
  refine ⟨(staging_exact rfl).1 _ _ _ _ _ _ _ ?_ (by decide) readingsClose_hourlyWorld,
    (staging_exact rfl).2 _ _ _ _ _ rfl ?_⟩
  · decide
  · rw [length_receivePuts_waiting]
    exact readingsClose_hourlyWorld

end Symbolic

end Molch
