import Molch.ConversationSteps

namespace Molch

variable {B : Type}

def HeaderAndMessageKeyStore.pairs (store : HeaderAndMessageKeyStore B) :
    List (EmptyableHeaderKey B × MessageKey B) :=
  store.keys.map fun key => (key.headerKey, key.messageKey)

namespace World

/-- The readings of one call lie so close together that a key made during the call is not
outdated before its end. -/
def Steady (w : World B) : Prop :=
  ∀ i j, w.clock i - maximumAge < w.clock j + maximumAge

/-- The second world continues the clock of the first one. -/
def Continues (w w' : World B) : Prop := ∃ n, ∀ i, w'.clock i = w.clock (i + n)

theorem Continues.refl (w : World B) : w.Continues w := ⟨0, fun _ => rfl⟩

theorem Continues.trans {w w' w'' : World B} (h : w.Continues w') (h' : w'.Continues w'') :
    w.Continues w'' := by
  obtain ⟨m, hm⟩ := h
  obtain ⟨n, hn⟩ := h'
  refine ⟨n + m, fun i => ?_⟩
  rw [hn, hm, Nat.add_assoc]

theorem Continues.now (w : World B) : w.Continues w.now.2 := ⟨1, fun _ => rfl⟩

theorem Steady.continues {w w' : World B} (h : w.Steady) (hw : w.Continues w') : w'.Steady := by
  obtain ⟨n, hn⟩ := hw
  intro i j
  rw [hn, hn]
  exact h _ _

end World

/-- The dates of the keys come from the clock of the call. -/
def HeaderAndMessageKeyStore.DatedBy (store : HeaderAndMessageKeyStore B) (w : World B) : Prop :=
  ∀ key ∈ store.keys, ∃ j, key.expirationDate = w.clock j + maximumAge

theorem HeaderAndMessageKeyStore.DatedBy.not_outdated {store : HeaderAndMessageKeyStore B}
    {w w' : World B} (h : store.DatedBy w) (hw : w.Steady) (hw' : w.Continues w') (i : ℕ) :
    ∀ key ∈ store.keys, key.outdated (w'.clock i) = false := by
  intro key hkey
  obtain ⟨j, hdate⟩ := h key hkey
  obtain ⟨n, hn⟩ := hw'
  have hclose := hw (i + n) j
  unfold HeaderAndMessageKey.outdated
  rw [hdate, hn]
  exact decide_eq_false (by omega)

theorem length_pairs (store : HeaderAndMessageKeyStore B) :
    store.pairs.length = store.keys.length := by
  simp [HeaderAndMessageKeyStore.pairs]

theorem add_pairs (store : HeaderAndMessageKeyStore B) {w : World B} (hw : w.Steady)
    (hsize : store.keys.length < maximumKeys) (headerKey : EmptyableHeaderKey B)
    (messageKey : MessageKey B) :
    (store.add headerKey messageKey w).1.pairs.Perm ((headerKey, messageKey) :: store.pairs) ∧
      w.Continues (store.add headerKey messageKey w).2 := by
  have hfresh : (HeaderAndMessageKey.mk headerKey messageKey
      (w.clock 0 + maximumAge)).outdated (w.clock 1) = false := by
    have hclose := hw 1 0
    unfold HeaderAndMessageKey.outdated
    exact decide_eq_false (by simp only; omega)
  constructor
  · exact (HeaderAndMessageKeyStore.addKey_perm store _ w.now.2 hfresh hsize).map _
  · refine (World.Continues.now w).trans ?_
    unfold HeaderAndMessageKeyStore.add HeaderAndMessageKey.create
    simp only [HeaderAndMessageKeyStore.addKey_world]
    exact World.Continues.now _

section Staging

variable [Byte B] [Sodium B]

theorem stagedKeys_pairs (headerKey : EmptyableHeaderKey B) {count : ℕ} (chainKey : ChainKey B)
    {stagingArea : HeaderAndMessageKeyStore B} {w : World B} (hw : w.Steady)
    (hsize : stagingArea.keys.length + count ≤ maximumKeys) :
    let staged := stagedKeys headerKey count chainKey stagingArea w
    staged.1.pairs.Perm (stagingArea.pairs ++ (List.range count).map fun i =>
      (headerKey, (chainKey.advance i).messageKey)) ∧ w.Continues staged.2 := by
  induction count generalizing chainKey stagingArea w with
  | zero => simpa [stagedKeys] using World.Continues.refl w
  | succ count ih =>
      obtain ⟨hadd, hcontinues⟩ :=
        add_pairs stagingArea hw (by omega) headerKey chainKey.messageKey
      have hlength := hadd.length_eq
      rw [length_pairs, List.length_cons, length_pairs] at hlength
      have hroom : (stagingArea.add headerKey chainKey.messageKey w).1.keys.length + count ≤
          maximumKeys := by omega
      obtain ⟨hperm, hlater⟩ := ih chainKey.nextChainKey (hw.continues hcontinues) hroom
      refine ⟨hperm.trans ?_, hcontinues.trans hlater⟩
      rw [List.range_succ_eq_map, List.map_cons, List.map_map]
      refine (hadd.append_right _).trans ?_
      exact List.perm_middle.symm

theorem stagedKeys_datedBy {headerKey : EmptyableHeaderKey B} {count : ℕ} {chainKey : ChainKey B}
    {stagingArea : HeaderAndMessageKeyStore B} {w w' : World B} (hw : w.Continues w')
    (h : stagingArea.DatedBy w) :
    (stagedKeys headerKey count chainKey stagingArea w').1.DatedBy w := by
  intro key hkey
  rcases mem_stagedKeys hkey with hkey | ⟨-, -, j, hdate⟩
  · exact h key hkey
  · obtain ⟨n, hn⟩ := hw
    exact ⟨j + n, by rw [hdate, hn]⟩

end Staging

theorem committedKeys_pairs {skipped staged : HeaderAndMessageKeyStore B} {w w' : World B}
    (hw : w.Steady) (hw' : w.Continues w')
    (hskipped : ∀ key ∈ skipped.keys, ∀ i, key.outdated (w.clock i) = false)
    (hstaged : staged.DatedBy w)
    (hsize : skipped.keys.length + staged.keys.length ≤ maximumKeys) :
    (committedKeys skipped staged w').pairs.Perm (skipped.pairs ++ staged.pairs) := by
  have hmerge : (skipped.keys.merge staged.keys fun a b =>
      decide (a.expirationDate ≤ b.expirationDate)).Perm (skipped.keys ++ staged.keys) :=
    List.merge_perm_append _
  have hlength := hmerge.length_eq
  rw [List.length_append] at hlength
  have hfresh : ∀ i, ∀ key ∈ skipped.keys.merge staged.keys fun a b =>
      decide (a.expirationDate ≤ b.expirationDate), key.outdated (w'.clock i) = false := by
    intro i key hkey
    rcases List.mem_append.mp (hmerge.subset hkey) with hkey | hkey
    · obtain ⟨n, hn⟩ := hw'
      rw [hn]
      exact hskipped key hkey _
    · exact hstaged.not_outdated hw hw' i key hkey
  unfold committedKeys HeaderAndMessageKeyStore.addStore
    HeaderAndMessageKeyStore.removeOutdatedAndTrimSize HeaderAndMessageKeyStore.pairs
  simp only [World.now]
  rw [HeaderAndMessageKeyStore.trim_eq_self (hfresh 0) (by omega),
    HeaderAndMessageKeyStore.trim_eq_self (hfresh 1) (by omega), ← List.map_append]
  exact hmerge.map _

end Molch
