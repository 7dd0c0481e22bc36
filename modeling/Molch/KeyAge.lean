import Molch.KeyStoreOrder
import Molch.ConversationSteps
import Molch.Handshake
import Mathlib.Data.Int.ConditionallyCompleteOrder
import Mathlib.Order.ConditionallyCompleteLattice.Basic

namespace Molch

open HeaderAndMessageKeyStore hiding call Call

variable {B : Type} [Byte B] [Sodium B]

/-- A key and the reading of the clock at which it is put into the staging area. -/
abbrev Put (B : Type) := HeaderAndMessageKey B × ℤ

/-- What the loop `stageKeys` adds. The constructor of a key reads the clock, and so does the
check whether it is outdated. -/
def stageKeysPuts (headerKey : EmptyableHeaderKey B) :
    ℕ → EmptyableChainKey B → World B → List (Put B)
  | 0, _, _ => []
  | count + 1, chainKey, w =>
      match chainKey.deriveMessageKey with
      | .error _ => []
      | .ok messageKey =>
          (⟨headerKey, messageKey, w.now.1 + maximumAge⟩, w.now.1) ::
            match chainKey.deriveChainKey with
            | .error _ => []
            | .ok nextChainKey => stageKeysPuts headerKey count nextChainKey w.now.2.now.2

theorem stageKeys_puts (headerKey : EmptyableHeaderKey B) (count : ℕ)
    (chainKey : EmptyableChainKey B) (staged : HeaderAndMessageKeyStore B) (w : World B) :
    ∀ key ∈ (stageKeys headerKey count chainKey staged w).2.1.keys, key ∈ staged.keys ∨
      ∃ time, (key, time) ∈ stageKeysPuts headerKey count chainKey w := by
  induction count generalizing chainKey staged w with
  | zero => exact fun key hkey => .inl hkey
  | succ count ih =>
      intro key hkey
      rw [stageKeys] at hkey
      rw [stageKeysPuts]
      cases hmessage : chainKey.deriveMessageKey with
      | error e =>
          rw [hmessage] at hkey
          exact .inl hkey
      | ok messageKey =>
          rw [hmessage] at hkey
          have hadd : ∀ key ∈ (staged.add headerKey messageKey w).1.keys, key ∈ staged.keys ∨
              key = ⟨headerKey, messageKey, w.now.1 + maximumAge⟩ := by
            intro key hkey
            rcases List.mem_cons.mp ((addKey_subperm staged _ _).subset hkey) with rfl | hkey
            · exact .inr rfl
            · exact .inl hkey
          have hworld : (staged.add headerKey messageKey w).2 = w.now.2.now.2 := addKey_world _ _ _
          simp only at hkey ⊢
          cases hchain : chainKey.deriveChainKey with
          | error e =>
              rw [hchain] at hkey
              rcases hadd key hkey with hkey | rfl
              · exact .inl hkey
              · exact .inr ⟨_, List.mem_cons_self⟩
          | ok nextChainKey =>
              rw [hchain] at hkey
              rcases ih nextChainKey _ _ key hkey with hkey | ⟨time, htime⟩
              · rcases hadd key hkey with hkey | rfl
                · exact .inl hkey
                · exact .inr ⟨_, List.mem_cons_self⟩
              · rw [hworld] at htime
                exact .inr ⟨time, List.mem_cons_of_mem _ htime⟩

theorem expirationDate_of_put {headerKey : EmptyableHeaderKey B} {count : ℕ}
    {chainKey : EmptyableChainKey B} {w : World B} {put : Put B}
    (h : put ∈ stageKeysPuts headerKey count chainKey w) :
    put.1.expirationDate = put.2 + maximumAge := by
  induction count generalizing chainKey w with
  | zero => cases h
  | succ count ih =>
      rw [stageKeysPuts] at h
      cases hmessage : chainKey.deriveMessageKey with
      | error e =>
          rw [hmessage] at h
          cases h
      | ok messageKey =>
          rw [hmessage] at h
          rcases List.mem_cons.mp h with rfl | h
          · rfl
          · cases hchain : chainKey.deriveChainKey with
            | error e =>
                rw [hchain] at h
                cases h
            | ok nextChainKey =>
                rw [hchain] at h
                exact ih h

theorem sortedAndBounded_stageKeys (headerKey : EmptyableHeaderKey B) (count : ℕ)
    (chainKey : EmptyableChainKey B) {staged : HeaderAndMessageKeyStore B} (w : World B)
    (h : staged.SortedAndBounded) :
    (stageKeys headerKey count chainKey staged w).2.1.SortedAndBounded := by
  induction count generalizing chainKey staged w with
  | zero => exact h
  | succ count ih =>
      rw [stageKeys]
      cases chainKey.deriveMessageKey with
      | error e => exact h
      | ok messageKey =>
          simp only
          cases chainKey.deriveChainKey with
          | error e => exact h.add headerKey messageKey w
          | ok nextChainKey => exact ih nextChainKey _ (h.add headerKey messageKey w)

section Staging

variable [Platform]

/-- What `stageSkippedHeaderAndMessageKeys` adds. -/
def stagePuts (headerKey : EmptyableHeaderKey B)
    (currentMessageNumber futureMessageNumber : UInt32) (chainKey : EmptyableChainKey B)
    (w : World B) : List (Put B) :=
  if chainKey.isNone ∨ tooManySkipped currentMessageNumber futureMessageNumber then []
  else stageKeysPuts headerKey (futureMessageNumber.toNat - currentMessageNumber.toNat) chainKey w

theorem stageSkippedHeaderAndMessageKeys_staged (staged : HeaderAndMessageKeyStore B)
    (output : Bool) (headerKey : EmptyableHeaderKey B)
    (currentMessageNumber futureMessageNumber : UInt32) (chainKey : EmptyableChainKey B)
    (w : World B) :
    (stageSkippedHeaderAndMessageKeys staged output headerKey currentMessageNumber
      futureMessageNumber chainKey w).2.1 =
    if chainKey.isNone ∨ tooManySkipped currentMessageNumber futureMessageNumber then staged
    else (stageKeys headerKey (futureMessageNumber.toNat - currentMessageNumber.toNat) chainKey
      staged w).2.1 := by
  unfold stageSkippedHeaderAndMessageKeys
  cases chainKey.isNone with
  | true => simp
  | false =>
      cases tooManySkipped currentMessageNumber futureMessageNumber with
      | true => simp
      | false =>
          simp only [Bool.false_eq_true, if_false, or_self]
          rcases stageKeys headerKey _ chainKey staged w with ⟨_ | currentChainKey, staged', w'⟩
          · rfl
          · simp only
            cases output with
            | false => rfl
            | true =>
                simp only [if_true]
                cases currentChainKey.deriveMessageKey with
                | error e => rfl
                | ok messageKey =>
                    simp only
                    cases currentChainKey.deriveChainKey <;> rfl

structure Staged (before after : HeaderAndMessageKeyStore B) (puts : List (Put B)) : Prop where
  recorded : ∀ key ∈ after.keys, key ∈ before.keys ∨ ∃ time, (key, time) ∈ puts
  dated : ∀ put ∈ puts, put.1.expirationDate = put.2 + maximumAge
  order : before.SortedAndBounded → after.SortedAndBounded

omit [Byte B] [Sodium B] [Platform] in
theorem Staged.refl (staged : HeaderAndMessageKeyStore B) : Staged staged staged [] :=
  ⟨fun _ => .inl, fun _ h => (List.not_mem_nil h).elim, id⟩

omit [Byte B] [Sodium B] [Platform] in
theorem Staged.trans {before middle after : HeaderAndMessageKeyStore B} {puts puts' : List (Put B)}
    (h : Staged before middle puts) (h' : Staged middle after puts') :
    Staged before after (puts ++ puts') where
  recorded key hkey := by
    rcases h'.recorded key hkey with hkey | ⟨time, htime⟩
    · rcases h.recorded key hkey with hkey | ⟨time, htime⟩
      · exact .inl hkey
      · exact .inr ⟨time, List.mem_append_left _ htime⟩
    · exact .inr ⟨time, List.mem_append_right _ htime⟩
  dated put hput := (List.mem_append.mp hput).elim (h.dated put) (h'.dated put)
  order hbefore := h'.order (h.order hbefore)

theorem staged_stageSkipped (staged : HeaderAndMessageKeyStore B) (output : Bool)
    (headerKey : EmptyableHeaderKey B) (currentMessageNumber futureMessageNumber : UInt32)
    (chainKey : EmptyableChainKey B) (w : World B) :
    Staged staged (stageSkippedHeaderAndMessageKeys staged output headerKey currentMessageNumber
        futureMessageNumber chainKey w).2.1
      (stagePuts headerKey currentMessageNumber futureMessageNumber chainKey w) := by
  rw [stageSkippedHeaderAndMessageKeys_staged, stagePuts]
  split
  · exact .refl staged
  · exact ⟨stageKeys_puts headerKey _ chainKey staged w, fun _ => expirationDate_of_put,
      sortedAndBounded_stageKeys headerKey _ chainKey w⟩

end Staging

namespace Ratchet

variable [Platform]

/-- What `receive` puts into the staging area, on the current chain or on it and a new one. -/
def receivePuts (ratchet : Ratchet B) (theirPurportedPublicEphemeral : PublicKey B)
    (purportedMessageNumber purportedPreviousMessageNumber : UInt32) (w : World B) :
    List (Put B) :=
  if !ratchet.receivedValid then []
  else if ratchet.headerDecryptable = .notTried then []
  else if ratchet.onCurrentChain then
    stagePuts ratchet.receiveHeaderKey ratchet.receiveMessageNumber purportedMessageNumber
      ratchet.receiveChainKey w
  else if ratchet.ratchetFlag ∨ ratchet.headerDecryptable ≠ .nextDecryptable then []
  else
    stagePuts ratchet.receiveHeaderKey ratchet.receiveMessageNumber
        purportedPreviousMessageNumber ratchet.receiveChainKey w ++
      match stageSkippedHeaderAndMessageKeys ratchet.stagedHeaderAndMessageKeys false
          ratchet.receiveHeaderKey ratchet.receiveMessageNumber purportedPreviousMessageNumber
          ratchet.receiveChainKey w with
      | (.error _, _, _) => []
      | (.ok _, _, w) =>
          match deriveRootNextHeaderAndChainKeys ratchet.ourPrivateEphemeral
              ratchet.ourPublicEphemeral theirPurportedPublicEphemeral ratchet.rootKey
              ratchet.role with
          | .error _ => []
          | .ok derived =>
              stagePuts ratchet.nextReceiveHeaderKey 0 purportedMessageNumber
                (.ofKey derived.chainKey) w

inductive Call (B : Type) where
  | getSendData
  | setHeaderDecryptability (headerDecryptable : HeaderDecryptability)
  | receive (theirPurportedPublicEphemeral : PublicKey B)
      (purportedMessageNumber purportedPreviousMessageNumber : UInt32)
  | setLastMessageAuthenticity (valid : Bool)
  | removeSkipped (index : ℕ)

def call (state : Ratchet B × World B) : Call B → List (Put B) × Ratchet B × World B
  | .getSendData => ([], (state.1.getSendData state.2).2)
  | .setHeaderDecryptability headerDecryptable =>
      ([], (state.1.setHeaderDecryptability headerDecryptable).2, state.2)
  | .receive ephemeral number previousNumber =>
      (state.1.receivePuts ephemeral number previousNumber state.2,
        (state.1.receive ephemeral number previousNumber state.2).2)
  | .setLastMessageAuthenticity valid =>
      ([], (state.1.setLastMessageAuthenticity valid state.2).2)
  | .removeSkipped index =>
      ([], { state.1 with
        skippedHeaderAndMessageKeys := state.1.skippedHeaderAndMessageKeys.remove index }, state.2)

theorem staged_receiveCurrentChain (ratchet : Ratchet B) (number : UInt32) (w : World B) :
    let received := (ratchet.receiveCurrentChain number w).2.1
    received.skippedHeaderAndMessageKeys = ratchet.skippedHeaderAndMessageKeys ∧
      Staged ratchet.stagedHeaderAndMessageKeys received.stagedHeaderAndMessageKeys
        (stagePuts ratchet.receiveHeaderKey ratchet.receiveMessageNumber number
          ratchet.receiveChainKey w) := by
  intro received
  have hstaged := staged_stageSkipped ratchet.stagedHeaderAndMessageKeys true
    ratchet.receiveHeaderKey ratchet.receiveMessageNumber number ratchet.receiveChainKey w
  simp only [received, receiveCurrentChain]
  generalize stageSkippedHeaderAndMessageKeys ratchet.stagedHeaderAndMessageKeys true
    ratchet.receiveHeaderKey ratchet.receiveMessageNumber number ratchet.receiveChainKey w =
    result at hstaged ⊢
  rcases result with ⟨_ | _ | _, staged, w'⟩
  all_goals exact ⟨rfl, hstaged⟩

theorem staged_receive (ratchet : Ratchet B) (ephemeral : PublicKey B)
    (number previousNumber : UInt32) (w : World B) :
    let received := (ratchet.receive ephemeral number previousNumber w).2.1
    received.skippedHeaderAndMessageKeys = ratchet.skippedHeaderAndMessageKeys ∧
      Staged ratchet.stagedHeaderAndMessageKeys received.stagedHeaderAndMessageKeys
        (ratchet.receivePuts ephemeral number previousNumber w) := by
  intro received
  simp only [received, receive, receivePuts]
  split
  · exact ⟨rfl, .refl _⟩
  · split
    · exact ⟨rfl, .refl _⟩
    · split
      · exact ratchet.staged_receiveCurrentChain number w
      · split
        · exact ⟨rfl, .refl _⟩
        · have hfirst := staged_stageSkipped ratchet.stagedHeaderAndMessageKeys false
            ratchet.receiveHeaderKey ratchet.receiveMessageNumber previousNumber
            ratchet.receiveChainKey w
          simp only [receiveNextChain]
          generalize stageSkippedHeaderAndMessageKeys ratchet.stagedHeaderAndMessageKeys false
            ratchet.receiveHeaderKey ratchet.receiveMessageNumber previousNumber
            ratchet.receiveChainKey w = result at hfirst ⊢
          rcases result with ⟨_ | _, staged, w'⟩
          · exact ⟨rfl, by simpa using hfirst⟩
          · simp only
            cases deriveRootNextHeaderAndChainKeys ratchet.ourPrivateEphemeral
                ratchet.ourPublicEphemeral ephemeral ratchet.rootKey ratchet.role with
            | error e => exact ⟨rfl, by simpa using hfirst⟩
            | ok derived =>
                have hsecond := staged_stageSkipped staged true ratchet.nextReceiveHeaderKey 0
                  number (.ofKey derived.chainKey) w'
                simp only
                generalize stageSkippedHeaderAndMessageKeys staged true
                  ratchet.nextReceiveHeaderKey 0 number (.ofKey derived.chainKey) w' =
                  result at hsecond ⊢
                rcases result with ⟨_ | _ | _, staged', w''⟩
                all_goals exact ⟨rfl, hfirst.trans hsecond⟩

omit [Platform] in
theorem getSendData_stores (ratchet : Ratchet B) (w : World B) :
    (ratchet.getSendData w).2.1.skippedHeaderAndMessageKeys =
        ratchet.skippedHeaderAndMessageKeys ∧
      (ratchet.getSendData w).2.1.stagedHeaderAndMessageKeys =
        ratchet.stagedHeaderAndMessageKeys := by
  have hnext : ∀ ratchet : Ratchet B,
      ratchet.nextSendData.2.skippedHeaderAndMessageKeys = ratchet.skippedHeaderAndMessageKeys ∧
      ratchet.nextSendData.2.stagedHeaderAndMessageKeys =
        ratchet.stagedHeaderAndMessageKeys := by
    intro ratchet
    unfold nextSendData
    cases ratchet.sendChainKey.deriveMessageKey with
    | error e => exact ⟨rfl, rfl⟩
    | ok messageKey =>
        simp only
        cases ratchet.sendHeaderKey with
        | none => exact ⟨rfl, rfl⟩
        | some headerKey =>
            simp only
            cases ratchet.sendChainKey.deriveChainKey <;> exact ⟨rfl, rfl⟩
  unfold getSendData
  split
  · cases hstart : ratchet.startSendChain w with
    | mk result state =>
        have hstores : state.1.skippedHeaderAndMessageKeys =
            ratchet.skippedHeaderAndMessageKeys ∧
            state.1.stagedHeaderAndMessageKeys = ratchet.stagedHeaderAndMessageKeys := by
          have hstate : state = (ratchet.startSendChain w).2 := by rw [hstart]
          rw [hstate]
          simp only [startSendChain]
          split <;> exact ⟨rfl, rfl⟩
        cases result with
        | error e => exact hstores
        | ok _ => exact ⟨(hnext state.1).1.trans hstores.1, (hnext state.1).2.trans hstores.2⟩
  · exact hnext ratchet

omit [Byte B] [Sodium B] [Platform] in
theorem setHeaderDecryptability_stores (ratchet : Ratchet B)
    (headerDecryptable : HeaderDecryptability) :
    (ratchet.setHeaderDecryptability headerDecryptable).2.skippedHeaderAndMessageKeys =
        ratchet.skippedHeaderAndMessageKeys ∧
      (ratchet.setHeaderDecryptability headerDecryptable).2.stagedHeaderAndMessageKeys =
        ratchet.stagedHeaderAndMessageKeys := by
  unfold setHeaderDecryptability
  split <;> exact ⟨rfl, rfl⟩

/-- The calls of `setLastMessageAuthenticity` that commit the staged keys. -/
def Commits (ratchet : Ratchet B) (valid : Bool) : Prop :=
  valid = true ∧ (ratchet.onCurrentChain = true ∨
    ¬ (ratchet.ratchetFlag = true ∨ ratchet.headerDecryptable ≠ .nextDecryptable) ∧
      ratchet.theirPurportedPublicEphemeral ≠ none)

omit [Sodium B] [Platform] in
theorem stores_of_commits {ratchet : Ratchet B} {valid : Bool} (h : ratchet.Commits valid)
    (w : World B) :
    (ratchet.setLastMessageAuthenticity valid w).2.1.skippedHeaderAndMessageKeys =
        (ratchet.commitSkippedHeaderAndMessageKeys w).1.skippedHeaderAndMessageKeys ∧
      (ratchet.setLastMessageAuthenticity valid w).2.1.stagedHeaderAndMessageKeys = .clear := by
  obtain ⟨rfl, hcurrent | ⟨hnext, hephemeral⟩⟩ := h
  · unfold setLastMessageAuthenticity
    simp only [hcurrent, Bool.not_true, Bool.false_eq_true, if_false, if_true]
    exact ⟨rfl, rfl⟩
  · unfold setLastMessageAuthenticity
    simp only [hnext, Bool.not_true, Bool.false_eq_true, if_false]
    split
    · exact ⟨rfl, rfl⟩
    · cases hephemeral' : ratchet.theirPurportedPublicEphemeral with
      | none => exact absurd hephemeral' hephemeral
      | some ephemeral => exact ⟨rfl, rfl⟩

omit [Sodium B] [Platform] in
theorem stores_of_not_commits {ratchet : Ratchet B} {valid : Bool} (h : ¬ ratchet.Commits valid)
    (w : World B) :
    (ratchet.setLastMessageAuthenticity valid w).2.1.skippedHeaderAndMessageKeys =
        ratchet.skippedHeaderAndMessageKeys ∧
      ((ratchet.setLastMessageAuthenticity valid w).2.1.stagedHeaderAndMessageKeys = .clear ∨
        (ratchet.setLastMessageAuthenticity valid w).2.1.stagedHeaderAndMessageKeys =
          ratchet.stagedHeaderAndMessageKeys) := by
  unfold setLastMessageAuthenticity
  cases valid with
  | false => exact ⟨rfl, .inl rfl⟩
  | true =>
      cases hcurrent : ratchet.onCurrentChain with
      | true => exact absurd ⟨rfl, .inl hcurrent⟩ h
      | false =>
          simp only [Bool.not_true, Bool.false_eq_true, if_false]
          split
          · exact ⟨rfl, .inl rfl⟩
          · rename_i hnext
            cases hephemeral : ratchet.theirPurportedPublicEphemeral with
            | none => exact ⟨rfl, .inr rfl⟩
            | some ephemeral =>
                exact absurd ⟨rfl, .inr ⟨hnext, by rw [hephemeral]; simp⟩⟩ h

/-- The keys of the ratchet are on record, and both stores are in order. -/
structure Recorded (ratchet : Ratchet B) (puts : List (Put B)) : Prop where
  skipped : ratchet.skippedHeaderAndMessageKeys.SortedAndBounded
  staged : ratchet.stagedHeaderAndMessageKeys.SortedAndBounded
  skippedKeys : ∀ key ∈ ratchet.skippedHeaderAndMessageKeys.keys, ∃ time, (key, time) ∈ puts
  stagedKeys : ∀ key ∈ ratchet.stagedHeaderAndMessageKeys.keys, ∃ time, (key, time) ∈ puts
  dated : ∀ put ∈ puts, put.1.expirationDate = put.2 + maximumAge

namespace Recorded

variable {ratchet ratchet' : Ratchet B} {puts : List (Put B)}

omit [Byte B] [Sodium B] [Platform] in
theorem stage (h : ratchet.Recorded puts) {puts' : List (Put B)}
    (hskipped : ratchet'.skippedHeaderAndMessageKeys = ratchet.skippedHeaderAndMessageKeys)
    (hstaged : Staged ratchet.stagedHeaderAndMessageKeys ratchet'.stagedHeaderAndMessageKeys
      puts') : ratchet'.Recorded (puts ++ puts') where
  skipped := by
    rw [hskipped]
    exact h.skipped
  staged := hstaged.order h.staged
  skippedKeys key hkey := by
    rw [hskipped] at hkey
    obtain ⟨time, htime⟩ := h.skippedKeys key hkey
    exact ⟨time, List.mem_append_left _ htime⟩
  stagedKeys key hkey := by
    rcases hstaged.recorded key hkey with hkey | ⟨time, htime⟩
    · obtain ⟨time, htime⟩ := h.stagedKeys key hkey
      exact ⟨time, List.mem_append_left _ htime⟩
    · exact ⟨time, List.mem_append_right _ htime⟩
  dated put hput := (List.mem_append.mp hput).elim (h.dated put) (hstaged.dated put)

omit [Byte B] [Sodium B] [Platform] in
theorem congr (h : ratchet.Recorded puts)
    (hskipped : ratchet'.skippedHeaderAndMessageKeys = ratchet.skippedHeaderAndMessageKeys)
    (hstaged : ratchet'.stagedHeaderAndMessageKeys = ratchet.stagedHeaderAndMessageKeys) :
    ratchet'.Recorded puts := by
  rw [← List.append_nil puts]
  refine h.stage hskipped ?_
  rw [hstaged]
  exact .refl _

omit [Byte B] [Sodium B] [Platform] in
theorem clear (h : ratchet.Recorded puts)
    (hskipped : ratchet'.skippedHeaderAndMessageKeys.SortedAndBounded)
    (hkeys : ∀ key ∈ ratchet'.skippedHeaderAndMessageKeys.keys,
      key ∈ ratchet.skippedHeaderAndMessageKeys.keys ∨
        key ∈ ratchet.stagedHeaderAndMessageKeys.keys)
    (hstaged : ratchet'.stagedHeaderAndMessageKeys = .clear) : ratchet'.Recorded puts where
  skipped := hskipped
  staged := by
    rw [hstaged]
    exact .clear
  skippedKeys key hkey := (hkeys key hkey).elim (h.skippedKeys key) (h.stagedKeys key)
  stagedKeys key hkey := by
    rw [hstaged] at hkey
    exact (List.not_mem_nil hkey).elim
  dated := h.dated

omit [Sodium B] [Platform] in
theorem setLastMessageAuthenticity (h : ratchet.Recorded puts) (valid : Bool) (w : World B) :
    (ratchet.setLastMessageAuthenticity valid w).2.1.Recorded puts := by
  by_cases hcommits : ratchet.Commits valid
  · obtain ⟨hskipped, hstaged⟩ := stores_of_commits hcommits w
    rw [commit_eq ratchet w h.skipped h.staged] at hskipped
    refine h.clear ?_ ?_ hstaged
    · rw [hskipped]
      exact latest_sortedAndBounded (h.skipped.sorted.merge h.staged.sorted) _
    · intro key hkey
      rw [hskipped] at hkey
      exact List.mem_append.mp (Retained.merge_perm.subset ((latest_sublist _ _).subset hkey))
  · obtain ⟨hskipped, hstaged | hstaged⟩ := stores_of_not_commits hcommits w
    · refine h.clear ?_ ?_ hstaged
      · rw [hskipped]
        exact h.skipped
      · intro key hkey
        rw [hskipped] at hkey
        exact .inl hkey
    · exact h.congr hskipped hstaged

theorem call (h : ratchet.Recorded puts) (w : World B) (c : Call B) :
    (call (ratchet, w) c).2.1.Recorded (puts ++ (Ratchet.call (ratchet, w) c).1) := by
  cases c with
  | receive ephemeral number previousNumber =>
      obtain ⟨hskipped, hstaged⟩ :=
        ratchet.staged_receive ephemeral number previousNumber w
      exact h.stage hskipped hstaged
  | getSendData =>
      obtain ⟨hskipped, hstaged⟩ := ratchet.getSendData_stores w
      simpa only [Ratchet.call, List.append_nil] using h.congr hskipped hstaged
  | setHeaderDecryptability headerDecryptable =>
      obtain ⟨hskipped, hstaged⟩ := ratchet.setHeaderDecryptability_stores headerDecryptable
      simpa only [Ratchet.call, List.append_nil] using h.congr hskipped hstaged
  | setLastMessageAuthenticity valid =>
      simpa only [Ratchet.call, List.append_nil] using h.setLastMessageAuthenticity valid w
  | removeSkipped index =>
      simp only [Ratchet.call, List.append_nil]
      exact
        { h with
          skipped := h.skipped.remove index
          skippedKeys := fun key hkey => h.skippedKeys key (mem_of_mem_remove hkey) }

theorem final (h : ratchet.Recorded puts) (w : World B) (calls : List (Call B)) :
    (Runs.final Ratchet.call (ratchet, w) calls).1.Recorded
      (puts ++ (Runs.outputs Ratchet.call (ratchet, w) calls).flatten) := by
  induction calls generalizing ratchet w puts with
  | nil => simpa [Runs.final, Runs.outputs] using h
  | cons c calls ih =>
      rw [Runs.final, Runs.outputs, List.flatten_cons, ← List.append_assoc]
      exact ih (h.call w c) _

end Recorded

/-- At the time of a commit every key that has expired is outdated too: none of them has been
put into the staging area between two and one maximum ages before. -/
def Timely (state : Ratchet B × World B) : Call B → Prop
  | .setLastMessageAuthenticity valid => state.1.Commits valid →
      ∀ key ∈ state.1.skippedHeaderAndMessageKeys.keys ++ state.1.stagedHeaderAndMessageKeys.keys,
        key.expirationDate ≤ state.2.clock 1 → key.outdated (state.2.clock 1) = true
  | _ => True

omit [Platform] in
theorem recorded_of_create {ourPrivateIdentity : PrivateKey B}
    {ourPublicIdentity theirPublicIdentity : PublicKey B} {ourPrivateEphemeral : PrivateKey B}
    {ourPublicEphemeral theirPublicEphemeral : PublicKey B} {ratchet : Ratchet B}
    (hcreate : create ourPrivateIdentity ourPublicIdentity theirPublicIdentity
      ourPrivateEphemeral ourPublicEphemeral theirPublicEphemeral = .ok ratchet) :
    ratchet.Recorded [] := by
  obtain ⟨role, masterKey, -, -, rfl⟩ := exists_of_create hcreate
  exact ⟨.clear, .clear, fun _ h => (List.not_mem_nil h).elim,
    fun _ h => (List.not_mem_nil h).elim, fun _ h => (List.not_mem_nil h).elim⟩

/-- Right after a commit every key has been put into the staging area less than the maximum age
ago, as long as the commits come in time. -/
theorem kept_keys_younger_than_maximum_age {ourPrivateIdentity : PrivateKey B}
    {ourPublicIdentity theirPublicIdentity : PublicKey B} {ourPrivateEphemeral : PrivateKey B}
    {ourPublicEphemeral theirPublicEphemeral : PublicKey B} {ratchet : Ratchet B}
    (hcreate : create ourPrivateIdentity ourPublicIdentity theirPublicIdentity
      ourPrivateEphemeral ourPublicEphemeral theirPublicEphemeral = .ok ratchet)
    (w : World B) {calls : List (Call B)}
    (htimely : Runs.Admitted call Timely (ratchet, w) calls) :
    ∀ before valid after, calls = before ++ .setLastMessageAuthenticity valid :: after →
      let state := Runs.final call (ratchet, w) before
      state.1.Commits valid →
      ∀ key ∈ (call state (.setLastMessageAuthenticity valid)).2.1.skippedHeaderAndMessageKeys.keys,
        ∃ time, (key, time) ∈ (Runs.outputs call (ratchet, w) before).flatten ∧
          state.2.clock 1 - maximumAge < time := by
  intro before valid after hcalls state hcommits key hkey
  have hstart : ratchet.Recorded [] := recorded_of_create hcreate
  have hstate : state.1.Recorded (Runs.outputs call (ratchet, w) before).flatten :=
    hstart.final w before
  have hstored := (stores_of_commits hcommits state.2).1
  rw [commit_eq state.1 state.2 hstate.skipped hstate.staged] at hstored
  simp only [call, hstored] at hkey
  have hmem : key ∈ state.1.skippedHeaderAndMessageKeys.keys ++
      state.1.stagedHeaderAndMessageKeys.keys :=
    Retained.merge_perm.subset ((latest_sublist _ _).subset hkey)
  have hfresh := lt_of_mem_latest hkey
  have hlate : key.expirationDate ≤ state.2.clock 1 → key.outdated (state.2.clock 1) = true :=
    htimely before _ after hcalls hcommits key hmem
  obtain ⟨time, htime⟩ := (List.mem_append.mp hmem).elim (hstate.skippedKeys key)
    (hstate.stagedKeys key)
  have hdate := hstate.dated _ htime
  refine ⟨time, htime, ?_⟩
  by_contra hold
  have hexpired : key.expirationDate ≤ state.2.clock 1 := by
    simp only at hdate
    omega
  have houtdated : key.expirationDate ≤ state.2.clock 1 - maximumAge :=
    of_decide_eq_true (hlate hexpired)
  have hmax := le_max_right (state.2.clock 0) (state.2.clock 1)
  omega

omit [Sodium B] [Platform] in
theorem committedKeys_eq {skipped staged : HeaderAndMessageKeyStore B}
    (hskipped : skipped.SortedAndBounded) (hstaged : staged.SortedAndBounded) (w : World B) :
    committedKeys skipped staged w = ⟨latest (max (w.clock 0) (w.clock 1))
      (Retained.merge HeaderAndMessageKey.expirationDate skipped.keys staged.keys)⟩ :=
  congrArg skippedHeaderAndMessageKeys (commit_eq { (.init : Ratchet B) with
    skippedHeaderAndMessageKeys := skipped
    stagedHeaderAndMessageKeys := staged } w hskipped hstaged)

/-- The calls for one message of the current chain before its verdict. -/
def tryingCalls (number : UInt32) : List (Call B) :=
  [.setHeaderDecryptability .currentDecryptable, .receive Key.zero number 0]

theorem final_tryingCalls (ratchet : Ratchet B) (hvalid : ratchet.receivedValid = true)
    (htried : ratchet.headerDecryptable = .notTried)
    (hheader : ratchet.receiveHeaderKey.isNone = false)
    (hchain : ratchet.receiveChainKey.isNone = false) (number : UInt32)
    (hskip : tooManySkipped ratchet.receiveMessageNumber number = false) (w : World B) :
    let count := ratchet.skippedCount number
    let staged := Molch.stagedKeys ratchet.receiveHeaderKey count ratchet.receiveChainKey.key
      ratchet.stagedHeaderAndMessageKeys w
    let tried := Runs.final call (ratchet, w) (tryingCalls number)
    tried.2 = staged.2 ∧ (tried.1.skippedHeaderAndMessageKeys = ratchet.skippedHeaderAndMessageKeys ∧
      tried.1.stagedHeaderAndMessageKeys = staged.1) ∧ tried.1.Commits true ∧
      call tried (.setLastMessageAuthenticity true) =
        ([], ratchet.acceptCurrent number (ratchet.receiveChainKey.key.advance (count + 1))
          (committedKeys ratchet.skippedHeaderAndMessageKeys staged.1 staged.2),
          staged.2.now.2.now.2) := by
  intro count staged tried
  have htrying : (ratchet.setHeaderDecryptability .currentDecryptable).2 =
      ratchet.trying ratchet.skippedHeaderAndMessageKeys .currentDecryptable := by
    unfold setHeaderDecryptability
    simp [htried, trying]
  have htried' : tried = ((ratchet.trying ratchet.skippedHeaderAndMessageKeys
      .currentDecryptable).attempt
        { ratchet.purported with
          messageNumber := number
          receiveChainKey := .ofKey (ratchet.receiveChainKey.key.advance (count + 1)) }
        staged.1 false, staged.2) := by
    simp only [tried, tryingCalls, Runs.final, call, htrying]
    rw [receive_current _ hvalid hheader hchain hskip]
  rw [htried']
  refine ⟨rfl, ⟨rfl, rfl⟩, ⟨rfl, .inl ?_⟩, ?_⟩
  · simp only [onCurrentChain, attempt, trying, hheader]
    rfl
  · simp only [call]
    rw [setLastMessageAuthenticity_current _ hheader]

end Ratchet

namespace Symbolic

open Ratchet

/-- Two readings for the key that is staged and two for the commit, and from then on it is one
and a half months later. -/
def lateWorld : World ℕ :=
  { world with clock := fun i => if i < 4 then 0 else month + month / 2 }

theorem monotone_lateWorld : Monotone lateWorld.clock := by
  intro i j hij
  simp only [lateWorld]
  split
  · split
    · exact le_rfl
    · decide
  · rw [if_neg (by omega)]

theorem stagedKeys_one (headerKey : EmptyableHeaderKey ℕ) (chainKey : ChainKey ℕ) :
    Molch.stagedKeys headerKey 1 chainKey .clear lateWorld =
      (⟨[⟨headerKey, chainKey.messageKey, month⟩]⟩, lateWorld.now.2.now.2) := by
  rfl

theorem isNone_advance_succ (chainKey : ChainKey ℕ) (n : ℕ) :
    (EmptyableKey.ofKey (chainKey.advance (n + 1))).isNone = false := by
  rw [EmptyableKey.isNone_ofKey, Key.advance_succ']
  exact Key.isZero_deriveSubkeyWithIndex kdfNonzero _ _

theorem exists_receiving : ∃ ratchet : Ratchet ℕ,
    (∃ ours theirs, create Key.zero ours theirs Key.zero (Sodium.cryptoScalarmultBase Key.zero)
      (Sodium.cryptoScalarmultBase Key.zero) = .ok ratchet) ∧
    ratchet.receivedValid = true ∧ ratchet.headerDecryptable = .notTried ∧
    ratchet.receiveHeaderKey.isNone = false ∧ ratchet.receiveChainKey.isNone = false ∧
    ratchet.skippedHeaderAndMessageKeys = .clear ∧ ratchet.stagedHeaderAndMessageKeys = .clear ∧
    ratchet.receiveMessageNumber = 0 := by
  obtain ⟨ratchet, hcreate⟩ := exists_create (chooseRole_carry Nat.one_lt_two)
    (usable (by decide)) (usable (base_isZero Key.zero)) Key.zero Key.zero
    (Sodium.cryptoScalarmultBase Key.zero)
  obtain ⟨role, masterKey, hrole, -, hratchet⟩ := exists_of_create hcreate
  rw [chooseRole_carry Nat.one_lt_two] at hrole
  cases hrole
  refine ⟨ratchet, ⟨_, _, hcreate⟩, ?_⟩
  rw [hratchet]
  exact ⟨rfl, rfl, Key.isZero_deriveSubkeyWithIndex kdfNonzero masterKey.key 1,
    Key.isZero_deriveSubkeyWithIndex kdfNonzero masterKey.key 4, rfl, rfl, rfl⟩

theorem committedKeys_one {key : HeaderAndMessageKey ℕ} {w : World ℕ}
    (hfresh : max (w.clock 0) (w.clock 1) - maximumAge < key.expirationDate)
    {skipped staged : HeaderAndMessageKeyStore ℕ}
    (h : skipped = .clear ∧ staged = ⟨[key]⟩ ∨ skipped = ⟨[key]⟩ ∧ staged = .clear) :
    committedKeys skipped staged w = ⟨[key]⟩ := by
  have hone : (⟨[key]⟩ : HeaderAndMessageKeyStore ℕ).SortedAndBounded :=
    ⟨List.pairwise_singleton _ _, show 1 ≤ maximumKeys by decide⟩
  have hlatest : latest (max (w.clock 0) (w.clock 1)) [key] = [key] :=
    latest_eq_self (by simpa [HeaderAndMessageKey.outdated] using hfresh) hone.bounded
  rcases h with ⟨rfl, rfl⟩ | ⟨rfl, rfl⟩
  · rw [committedKeys_eq .clear hone, clear, Retained.nil_merge, hlatest]
  · rw [committedKeys_eq hone .clear, clear, Retained.merge_nil, hlatest]

/-- Two readings for the key that is staged and two for the commit, and from then on it is two
months later. -/
def laterWorld : World ℕ := { world with clock := fun i => if i < 4 then 0 else 2 * month }

/-- Alice skips the message 0 by receiving the message 1, and skips the message 2 two months
later. The first commit keeps the key of the message 0, which is outdated at the second one. -/
theorem kept_keys_younger_timely_commits :
    ∃ ratchet : Ratchet ℕ,
      (call (Runs.final call (ratchet, laterWorld) (tryingCalls 1)) (.setLastMessageAuthenticity
        true)).2.1.skippedHeaderAndMessageKeys.keys.length = 1 ∧
      ∀ before valid after, tryingCalls 1 ++ .setLastMessageAuthenticity true ::
          (tryingCalls 3 ++ [.setLastMessageAuthenticity true]) =
            before ++ .setLastMessageAuthenticity valid :: after →
        let state := Runs.final call (ratchet, laterWorld) before
        state.1.Commits valid → ∀ key ∈ (call state (.setLastMessageAuthenticity
            valid)).2.1.skippedHeaderAndMessageKeys.keys,
          ∃ time, (key, time) ∈ (Runs.outputs call (ratchet, laterWorld) before).flatten ∧
            state.2.clock 1 - maximumAge < time := by
  obtain ⟨ratchet, ⟨ours, theirs, hcreate⟩, hvalid, htried, hheader, hchain, hskipped, hstaged,
    hnumber⟩ := exists_receiving
  let key : HeaderAndMessageKey ℕ :=
    ⟨ratchet.receiveHeaderKey, ratchet.receiveChainKey.key.messageKey, month⟩
  have hskip : tooManySkipped ratchet.receiveMessageNumber 1 = false := by
    rw [hnumber]
    decide
  have hcount : ratchet.skippedCount 1 = 1 := by
    rw [skippedCount, hnumber]
    rfl
  obtain ⟨hworld, ⟨hbefore, hwaiting⟩, -, hfirst⟩ := final_tryingCalls ratchet hvalid htried
    hheader hchain 1 hskip laterWorld
  have hone : Molch.stagedKeys ratchet.receiveHeaderKey 1 ratchet.receiveChainKey.key .clear
      laterWorld = (⟨[key]⟩, laterWorld.now.2.now.2) := rfl
  rw [hcount, hstaged, hone] at hworld hwaiting hfirst
  have hcommitted : committedKeys .clear ⟨[key]⟩ laterWorld.now.2.now.2 = ⟨[key]⟩ :=
    committedKeys_one (show max _ _ - maximumAge < month by decide) (.inl ⟨rfl, rfl⟩)
  rw [hskipped] at hbefore hfirst
  simp only [hcommitted] at hfirst
  -- two months later
  let accepted := ratchet.acceptCurrent 1 (ratchet.receiveChainKey.key.advance 2) ⟨[key]⟩
  let key' : HeaderAndMessageKey ℕ :=
    ⟨ratchet.receiveHeaderKey, accepted.receiveChainKey.key.messageKey, 2 * month + month⟩
  obtain ⟨hworld', ⟨hbefore', hwaiting'⟩, -, -⟩ := final_tryingCalls accepted rfl rfl hheader
    (isNone_advance_succ _ 1) 3
    (show tooManySkipped ((1 : UInt32) + 1) 3 = false by decide)
    laterWorld.now.2.now.2.now.2.now.2
  have hnext : Molch.stagedKeys accepted.receiveHeaderKey (accepted.skippedCount 3)
      accepted.receiveChainKey.key accepted.stagedHeaderAndMessageKeys
      laterWorld.now.2.now.2.now.2.now.2 =
        (⟨[key']⟩, laterWorld.now.2.now.2.now.2.now.2.now.2.now.2) := rfl
  rw [hnext] at hworld' hwaiting'
  refine ⟨ratchet, by rw [hfirst]; rfl, kept_keys_younger_than_maximum_age hcreate laterWorld ?_⟩
  refine Runs.admitted_append.mpr ⟨.cons trivial (.cons trivial (.nil _)), .cons ?_ ?_⟩
  · intro _ other hother hexpired
    rw [hbefore, hwaiting] at hother
    rw [List.mem_singleton.mp hother, hworld] at hexpired
    exact absurd (show month ≤ 0 from hexpired) (by decide)
  · rw [hfirst]
    refine Runs.admitted_append.mpr ⟨.cons trivial (.cons trivial (.nil _)), .cons ?_ (.nil _)⟩
    intro _ other hother hexpired
    rw [hworld'] at hexpired ⊢
    rw [hbefore', hwaiting'] at hother
    rcases List.mem_append.mp hother with hold | hnew
    · rw [List.mem_singleton.mp hold]
      exact decide_eq_true (show month ≤ 2 * month - month by decide)
    · rw [List.mem_singleton.mp hnew] at hexpired
      exact absurd (show 2 * month + month ≤ 2 * month from hexpired) (by decide)

/-- Alice skips the message 0 by receiving the message 1, and receives the message 2 one and a
half months later. The key of the message 0 survives that. -/
theorem key_kept_longer_than_maximum_age :
    ∃ ratchet : Ratchet ℕ,
      (∃ ours theirs, create Key.zero ours theirs Key.zero (Sodium.cryptoScalarmultBase Key.zero)
        (Sodium.cryptoScalarmultBase Key.zero) = .ok ratchet) ∧
      Monotone lateWorld.clock ∧
      let before := tryingCalls 1 ++ .setLastMessageAuthenticity true :: tryingCalls 2
      let state := Runs.final call (ratchet, lateWorld) before
      state.1.Commits true ∧
        ∃ key ∈ (call state (.setLastMessageAuthenticity
          true)).2.1.skippedHeaderAndMessageKeys.keys,
          ∀ time, (key, time) ∈ (Runs.outputs call (ratchet, lateWorld) before).flatten →
            time ≤ state.2.clock 1 - maximumAge := by
  obtain ⟨ratchet, ⟨ours, theirs, hcreate⟩, hvalid, htried, hheader, hchain, hskipped, hstaged,
    hnumber⟩ := exists_receiving
  have hrecorded := (recorded_of_create hcreate).final lateWorld
    (tryingCalls 1 ++ .setLastMessageAuthenticity true :: tryingCalls 2)
  refine ⟨ratchet, ⟨_, _, hcreate⟩, monotone_lateWorld, ?_⟩
  let key : HeaderAndMessageKey ℕ :=
    ⟨ratchet.receiveHeaderKey, ratchet.receiveChainKey.key.messageKey, month⟩
  -- the message 1, at the beginning
  have hskip : tooManySkipped ratchet.receiveMessageNumber 1 = false := by
    rw [hnumber]
    decide
  have hcount : ratchet.skippedCount 1 = 1 := by
    rw [skippedCount, hnumber]
    rfl
  obtain ⟨-, -, -, hfirst⟩ := final_tryingCalls ratchet hvalid htried hheader hchain 1 hskip
    lateWorld
  rw [hcount, hstaged, stagedKeys_one, hskipped] at hfirst
  have hcommitted : committedKeys .clear ⟨[key]⟩ lateWorld.now.2.now.2 = ⟨[key]⟩ :=
    committedKeys_one (show max _ _ - maximumAge < month by decide) (.inl ⟨rfl, rfl⟩)
  simp only [key] at hcommitted
  simp only [hcommitted] at hfirst
  -- the message 2, one and a half months later
  have hskip' : tooManySkipped ((1 : UInt32) + 1) 2 = false := by decide
  have hstate : Runs.final call (ratchet, lateWorld)
      (tryingCalls 1 ++ .setLastMessageAuthenticity true :: tryingCalls 2) =
      Runs.final call (ratchet.acceptCurrent 1 (ratchet.receiveChainKey.key.advance 2) ⟨[key]⟩,
        lateWorld.now.2.now.2.now.2.now.2) (tryingCalls 2) := by
    rw [Runs.final_append, Runs.final, hfirst]
  obtain ⟨hworld, -, hcommits, hsecond⟩ := final_tryingCalls
    (ratchet.acceptCurrent 1 (ratchet.receiveChainKey.key.advance 2) ⟨[key]⟩)
    rfl rfl hheader (isNone_advance_succ _ 1) 2 hskip' lateWorld.now.2.now.2.now.2.now.2
  have hcommitted' : committedKeys ⟨[key]⟩ .clear lateWorld.now.2.now.2.now.2.now.2 = ⟨[key]⟩ :=
    committedKeys_one (show max _ _ - maximumAge < month by decide) (.inr ⟨rfl, rfl⟩)
  intro before state
  have hclock : state.2.clock 1 = month + month / 2 := by
    simp only [state, before, hstate, hworld]
    rfl
  refine ⟨?_, key, ?_, ?_⟩
  · simp only [state, before, hstate]
    exact hcommits
  · have hkept : key ∈ (committedKeys ⟨[key]⟩ .clear
        lateWorld.now.2.now.2.now.2.now.2).keys := by
      rw [hcommitted']
      exact List.mem_cons_self
    simp only [state, before, hstate, hsecond]
    exact hkept
  · intro time htime
    have hdate : month = time + maximumAge := hrecorded.dated _ htime
    rw [hclock]
    have hmonth : maximumAge = month := rfl
    have hpositive : 0 < month := by decide
    omega

end Symbolic

end Molch
