import Molch.KeyDerivation
import Mathlib.Data.List.Nodup

/-!
The exchange of messages between Alice and Bob without its cryptography: which
chain a party sends on, which messages it has passed on the chains of its peer and
which of those it still waits for. Chains are numbered in the order in which they
are started. Bob sends on the first one, then the parties take turns.
-/

namespace Molch

namespace Role

theorem other_ne (role : Role) : role.other ≠ role := by
  cases role <;> decide

theorem ne_other (role : Role) : role ≠ role.other :=
  role.other_ne.symm

theorem eq_or_eq_other (role role' : Role) : role' = role ∨ role' = role.other := by
  cases role <;> cases role' <;> decide

end Role

def chainSender (chain : ℕ) : Role := if chain % 2 = 0 then .bob else .alice

theorem chainSender_add_one (chain : ℕ) :
    chainSender (chain + 1) = (chainSender chain).other := by
  unfold chainSender
  rcases Nat.mod_two_eq_zero_or_one chain with h | h
  · rw [if_neg (by omega), if_pos h]
    rfl
  · rw [if_pos (by omega), if_neg (by omega)]
    rfl

theorem chainSender_add_two (chain : ℕ) : chainSender (chain + 2) = chainSender chain := by
  rw [chainSender_add_one, chainSender_add_one, Role.other_other]

structure Place where
  chain : ℕ
  number : ℕ
deriving DecidableEq

/-- The places of a chain from one number up to another one. -/
def places (chain first last : ℕ) : List Place :=
  (List.range (last - first)).map fun i => ⟨chain, first + i⟩

theorem mem_places {chain first last : ℕ} {place : Place} :
    place ∈ places chain first last ↔
      place.chain = chain ∧ first ≤ place.number ∧ place.number < last := by
  unfold places
  rw [List.mem_map]
  constructor
  · rintro ⟨i, hi, rfl⟩
    rw [List.mem_range] at hi
    refine ⟨rfl, Nat.le_add_right _ _, ?_⟩
    change first + i < last
    omega
  · rintro ⟨rfl, hfirst, hlast⟩
    refine ⟨place.number - first, List.mem_range.mpr (by omega), ?_⟩
    rw [Nat.add_sub_cancel' hfirst]

theorem nodup_places (chain first last : ℕ) : (places chain first last).Nodup := by
  refine List.Nodup.map ?_ List.nodup_range
  intro i j h
  exact Nat.add_left_cancel (Place.mk.inj h).2

theorem length_places (chain first last : ℕ) :
    (places chain first last).length = last - first := by
  simp [places]

/-- The state of both parties. The chain with the number `turn role` is the one on which
`role` sends; if `flag role` is set it has not been started yet. The chain before it is the
one on which `role` receives. -/
structure Exchange where
  turn : Role → ℕ
  flag : Role → Bool
  /-- The newest chain that has been started. -/
  newest : ℕ
  /-- How many messages have been sent on a chain. -/
  count : ℕ → ℕ
  /-- The number of the next message that is expected on the chain of the peer. -/
  received : Role → ℕ
  /-- The messages that a party has passed without getting them. -/
  outstanding : Role → List Place
  log : Role → List Place
  /-- The messages of the peer that have been delivered, by their index in its log. -/
  delivered : Role → List ℕ

namespace Exchange

/-- The number of messages on the chain of the same sender before the given one. -/
def previous (x : Exchange) (chain : ℕ) : ℕ := if chain < 2 then 0 else x.count (chain - 2)

/-- Whether a party has moved beyond a message of its peer. -/
def Passed (x : Exchange) (role : Role) (place : Place) : Prop :=
  place.chain + 1 < x.turn role ∨
    place.chain + 1 = x.turn role ∧ place.number < x.received role

structure Valid (x : Exchange) : Prop where
  sender : ∀ role, chainSender (x.turn role) = role
  adjacent : ∀ role, x.turn role ≤ x.turn role.other + 1
  flag : ∀ role, x.flag role = true → x.turn role = x.turn role.other + 1
  newest : ∀ role, x.flag role = true → x.turn role = x.newest + 1
  newest' : ∀ role, x.flag role = false → x.turn role ≤ x.newest
  newest_sent : ∃ role, x.flag role = false ∧ x.turn role = x.newest
  received : ∀ role chain, x.turn role = chain + 1 → x.received role ≤ x.count chain
  unstarted : ∀ chain, x.newest < chain → x.count chain = 0
  count_lt : ∀ chain, x.count chain < 2 ^ 32
  log : ∀ role, ∀ place ∈ x.log role, chainSender place.chain = role ∧
    place.chain ≤ x.turn role ∧ (x.flag role = true → place.chain ≠ x.turn role) ∧
    place.number < x.count place.chain
  log_nodup : ∀ role, (x.log role).Nodup
  outstanding : ∀ role, ∀ place ∈ x.outstanding role,
    place.chain < x.turn role ∧ x.Passed role place
  outstanding_nodup : ∀ role, (x.outstanding role).Nodup
  delivered_lt : ∀ role, ∀ k ∈ x.delivered role, k < (x.log role.other).length
  delivered : ∀ role k place, (x.log role.other)[k]? = some place →
    (k ∈ x.delivered role ↔ x.Passed role place ∧ place ∉ x.outstanding role)

/-- Bob may send at once, Alice has to start her chain. -/
def start : Exchange where
  turn role := if role = .bob then 0 else 1
  flag role := decide (role = .alice)
  newest := 0
  count _ := 0
  received _ := 0
  outstanding _ := []
  log _ := []
  delivered _ := []

theorem valid_start : start.Valid where
  sender role := by cases role <;> rfl
  adjacent role := by cases role <;> decide
  flag role hflag := by cases role <;> first | rfl | cases hflag
  newest role hflag := by cases role <;> first | rfl | cases hflag
  newest' role hflag := by cases role <;> first | exact le_rfl | cases hflag
  newest_sent := ⟨.bob, rfl, rfl⟩
  received _ _ _ := le_rfl
  unstarted _ _ := rfl
  count_lt _ := Nat.two_pow_pos 32
  log _ _ hplace := by cases hplace
  log_nodup _ := List.nodup_nil
  outstanding _ _ hplace := by cases hplace
  outstanding_nodup _ := List.nodup_nil
  delivered_lt _ _ hk := by cases hk
  delivered _ _ _ hplace := by cases hplace

section Operations

variable (x : Exchange) (role : Role)

def send : Exchange :=
  { x with
    flag := Function.update x.flag role false
    newest := max x.newest (x.turn role)
    count := Function.update x.count (x.turn role) (x.count (x.turn role) + 1)
    log := Function.update x.log role (x.log role ++ [⟨x.turn role, x.count (x.turn role)⟩]) }

def deliver (k : ℕ) : Exchange :=
  { x with delivered := Function.update x.delivered role (k :: x.delivered role) }

/-- A party gets a message that it has passed before. -/
def take (k : ℕ) (place : Place) : Exchange :=
  { x.deliver role k with
    outstanding := Function.update x.outstanding role ((x.outstanding role).erase place) }

def acceptCurrent (k number : ℕ) : Exchange :=
  { x.deliver role k with
    received := Function.update x.received role (number + 1)
    outstanding := Function.update x.outstanding role (x.outstanding role ++
      places (x.turn role - 1) (x.received role) number) }

/-- The messages of its receiving chain that a party has not passed yet. -/
def rest : List Place :=
  if x.turn role = 0 then []
  else places (x.turn role - 1) (x.received role) (x.previous (x.turn role + 1))

def acceptNext (k number : ℕ) : Exchange :=
  { x.deliver role k with
    turn := Function.update x.turn role (x.turn role + 2)
    flag := Function.update x.flag role true
    received := Function.update x.received role (number + 1)
    outstanding := Function.update x.outstanding role (x.outstanding role ++
      (x.rest role ++ places (x.turn role + 1) 0 number)) }

end Operations

section Facts

variable {x : Exchange} {role : Role}

theorem Valid.flag_other (h : x.Valid) (hflag : x.flag role = true) :
    x.flag role.other = false := by
  by_contra hother
  have h1 := h.flag role hflag
  have h2 := h.flag role.other (by simpa using hother)
  rw [Role.other_other] at h2
  omega

theorem Valid.turn_ne (h : x.Valid) {place : Place} (hplace : chainSender place.chain = role.other) :
    place.chain ≠ x.turn role := by
  intro heq
  have hsender := h.sender role
  rw [← heq, hplace] at hsender
  exact role.other_ne hsender

theorem Valid.log_cases (h : x.Valid) {place : Place} (hplace : place ∈ x.log role.other) :
    place.chain < x.turn role ∨
      place.chain = x.turn role + 1 ∧ x.flag role = false ∧
        x.turn role.other = x.turn role + 1 := by
  obtain ⟨hsender, hle, hflag, -⟩ := h.log role.other place hplace
  have hne := h.turn_ne hsender
  have hadjacent := h.adjacent role.other
  rw [Role.other_other] at hadjacent
  by_cases hlt : place.chain < x.turn role
  · exact .inl hlt
  · have hchain : place.chain = x.turn role + 1 := by omega
    refine .inr ⟨hchain, ?_, by omega⟩
    by_contra hrole
    have := h.flag role (by simpa using hrole)
    omega

theorem Valid.log_le_newest (h : x.Valid) {place : Place} (hplace : place ∈ x.log role) :
    place.chain ≤ x.newest := by
  obtain ⟨-, hle, hne, -⟩ := h.log role place hplace
  cases hflag : x.flag role with
  | false => exact hle.trans (h.newest' role hflag)
  | true =>
      have hturn := h.newest role hflag
      have := hne hflag
      omega

theorem Valid.turn_le (h : x.Valid) (role : Role) : x.turn role ≤ x.newest + 1 := by
  cases hflag : x.flag role with
  | false => exact (h.newest' role hflag).trans (Nat.le_succ _)
  | true => exact (h.newest role hflag).le

theorem Valid.outstanding_le_newest (h : x.Valid) {place : Place}
    (hplace : place ∈ x.outstanding role) : place.chain ≤ x.newest := by
  have hlt := (h.outstanding role place hplace).1
  have hle := h.turn_le role
  omega

theorem lt_of_passed {place : Place} (h : x.Passed role place) : place.chain < x.turn role := by
  rcases h with h | ⟨h, -⟩
  · omega
  · omega

end Facts

section Preservation

variable {x : Exchange} {role : Role}

/-- Being delivered means having been passed and not being waited for. An operation that
marks one message as delivered keeps this if it changes the status of that message only. -/
theorem delivered_cons {x y : Exchange} {k : ℕ} {place : Place}
    (h : x.Valid) (hplace : (x.log role.other)[k]? = some place)
    (hlog : y.log = x.log) (hdelivered : y.delivered role = k :: x.delivered role)
    (htaken : y.Passed role place ∧ place ∉ y.outstanding role)
    (hothers : ∀ other ∈ x.log role.other, other ≠ place →
      (y.Passed role other ∧ other ∉ y.outstanding role ↔
        x.Passed role other ∧ other ∉ x.outstanding role)) :
    ∀ k' other, (y.log role.other)[k']? = some other →
      (k' ∈ y.delivered role ↔ y.Passed role other ∧ other ∉ y.outstanding role) := by
  intro k' other hother
  rw [hlog] at hother
  rw [hdelivered, List.mem_cons]
  by_cases heq : other = place
  · subst heq
    have hk : k' = k := by
      obtain ⟨hlt, hget⟩ := List.getElem?_eq_some_iff.mp hother
      obtain ⟨hlt', hget'⟩ := List.getElem?_eq_some_iff.mp hplace
      exact (h.log_nodup role.other).getElem_inj_iff.mp (hget.trans hget'.symm)
    exact iff_of_true (.inl hk) htaken
  · have hk : k' ≠ k := by
      rintro rfl
      rw [hplace] at hother
      exact heq (Option.some.inj hother).symm
    rw [hothers other (List.mem_of_getElem? hother) heq, ← h.delivered role k' other hother]
    simp [hk]

theorem le_count_send (x : Exchange) (role : Role) (chain : ℕ) :
    x.count chain ≤ (x.send role).count chain := by
  by_cases hchain : chain = x.turn role
  · subst hchain
    simp [send]
  · simp [send, hchain]

theorem mem_log_send {role' : Role} {place : Place} :
    place ∈ (x.send role).log role' ↔
      place ∈ x.log role' ∨ role' = role ∧ place = ⟨x.turn role, x.count (x.turn role)⟩ := by
  by_cases hrole : role' = role
  · subst hrole
    simp [send]
  · simp [send, hrole]

theorem Valid.not_passed_sent (h : x.Valid) (role : Role) :
    ¬ x.Passed role.other ⟨x.turn role, x.count (x.turn role)⟩ := by
  rintro (hpassed | ⟨hturn, hnumber⟩)
  · have hadjacent := h.adjacent role.other
    rw [Role.other_other] at hadjacent
    simp only at hpassed
    omega
  · have := h.received role.other (x.turn role) hturn.symm
    simp only at hnumber
    omega

theorem Valid.send (h : x.Valid) (hcount : x.count (x.turn role) + 1 < 2 ^ 32) :
    (x.send role).Valid where
  sender := h.sender
  adjacent := h.adjacent
  flag role' hflag := by
    by_cases hrole : role' = role
    · simp [Exchange.send, hrole] at hflag
    · exact h.flag role' (by simpa [Exchange.send, hrole] using hflag)
  newest role' hflag := by
    rcases Role.eq_or_eq_other role role' with rfl | rfl
    · simp [Exchange.send] at hflag
    · have hflag' : x.flag role.other = true := by
        simpa [Exchange.send, role.other_ne] using hflag
      have hrole := h.flag_other hflag'
      rw [Role.other_other] at hrole
      have hle := h.newest' role hrole
      change x.turn role.other = max x.newest (x.turn role) + 1
      rw [max_eq_left hle]
      exact h.newest role.other hflag'
  newest' role' hflag := by
    by_cases hrole : role' = role
    · subst hrole
      exact le_max_right _ _
    · exact (h.newest' role' (by simpa [Exchange.send, hrole] using hflag)).trans
        (le_max_left _ _)
  newest_sent := by
    obtain ⟨newest, hflag, hnewest⟩ := h.newest_sent
    rcases le_total (x.turn role) x.newest with hle | hle
    · refine ⟨newest, ?_, hnewest.trans (max_eq_left hle).symm⟩
      by_cases hrole : newest = role
      · simp [Exchange.send, hrole]
      · simpa [Exchange.send, hrole] using hflag
    · exact ⟨role, by simp [Exchange.send], (max_eq_right hle).symm⟩
  received role' chain hturn :=
    (h.received role' chain hturn).trans (le_count_send x role chain)
  unstarted chain hchain := by
    obtain ⟨hnewest, hturn⟩ := max_lt_iff.mp hchain
    simpa [Exchange.send, hturn.ne'] using h.unstarted chain hnewest
  count_lt chain := by
    by_cases hchain : chain = x.turn role
    · subst hchain
      simpa [Exchange.send] using hcount
    · simpa [Exchange.send, hchain] using h.count_lt chain
  log role' place hplace := by
    rcases mem_log_send.mp hplace with hplace | ⟨rfl, rfl⟩
    · obtain ⟨hsender, hle, hne, hnumber⟩ := h.log role' place hplace
      refine ⟨hsender, hle, ?_, hnumber.trans_le (le_count_send x role _)⟩
      intro hflag
      apply hne
      by_cases hrole : role' = role
      · simp [Exchange.send, hrole] at hflag
      · simpa [Exchange.send, hrole] using hflag
    · refine ⟨h.sender role', le_rfl, ?_, ?_⟩
      · intro hflag
        simp [Exchange.send] at hflag
      · simp [Exchange.send]
  log_nodup role' := by
    by_cases hrole : role' = role
    · subst hrole
      have hfresh : ⟨x.turn role', x.count (x.turn role')⟩ ∉ x.log role' := by
        intro hmem
        exact lt_irrefl _ (h.log role' _ hmem).2.2.2
      have hnodup := (h.log_nodup role').concat hfresh
      simpa [Exchange.send] using hnodup
    · simpa [Exchange.send, hrole] using h.log_nodup role'
  outstanding := h.outstanding
  outstanding_nodup := h.outstanding_nodup
  delivered_lt role' k hk := by
    refine (h.delivered_lt role' k hk).trans_le ?_
    by_cases hrole : role'.other = role
    · subst hrole
      simp [Exchange.send]
    · simp [Exchange.send, hrole]
  delivered role' k place hplace := by
    by_cases hrole : role'.other = role
    · subst hrole
      simp only [Exchange.send, Function.update_self] at hplace
      by_cases hk : k < (x.log role'.other).length
      · rw [List.getElem?_append_left hk] at hplace
        exact h.delivered role' k place hplace
      · have hnew : place = ⟨x.turn role'.other, x.count (x.turn role'.other)⟩ := by
          rw [List.getElem?_append_right (not_lt.mp hk)] at hplace
          simpa using List.mem_of_getElem? hplace
        have hpassed := h.not_passed_sent role'.other
        rw [Role.other_other, ← hnew] at hpassed
        exact iff_of_false (fun hmem => hk (h.delivered_lt role' k hmem))
          (fun hand => hpassed hand.1)
    · simp only [Exchange.send, Function.update_of_ne hrole] at hplace
      exact h.delivered role' k place hplace

theorem Valid.deliver (h : x.Valid) {k : ℕ} (hk : k ∈ x.delivered role) :
    (x.deliver role k).Valid := by
  have hmem : ∀ role' k', k' ∈ (x.deliver role k).delivered role' ↔ k' ∈ x.delivered role' := by
    intro role' k'
    by_cases hrole : role' = role
    · subst hrole
      simp only [Exchange.deliver, Function.update_self, List.mem_cons, or_iff_right_iff_imp]
      rintro rfl
      exact hk
    · simp [Exchange.deliver, hrole]
  exact { h with
    delivered_lt := fun role' k' hk' => h.delivered_lt role' k' ((hmem role' k').mp hk')
    delivered := fun role' k' place hplace =>
      (hmem role' k').trans (h.delivered role' k' place hplace) }

theorem mem_delivered_lt (h : x.Valid) {k : ℕ} {place : Place}
    (hplace : (x.log role.other)[k]? = some place) :
    ∀ role', ∀ k' ∈ (x.deliver role k).delivered role', k' < (x.log role'.other).length := by
  intro role' k' hk'
  by_cases hrole : role' = role
  · subst hrole
    simp only [Exchange.deliver, Function.update_self, List.mem_cons] at hk'
    rcases hk' with rfl | hk'
    · exact (List.getElem?_eq_some_iff.mp hplace).1
    · exact h.delivered_lt role' k' hk'
  · simp only [Exchange.deliver, Function.update_of_ne hrole] at hk'
    exact h.delivered_lt role' k' hk'

theorem Valid.take (h : x.Valid) {k : ℕ} {place : Place}
    (hplace : (x.log role.other)[k]? = some place) (hmem : place ∈ x.outstanding role) :
    (x.take role k place).Valid := by
  have hout : ∀ role', ((x.take role k place).outstanding role').Sublist
      (x.outstanding role') := by
    intro role'
    by_cases hrole : role' = role
    · subst hrole
      simpa [Exchange.take] using List.erase_sublist
    · simp [Exchange.take, Exchange.deliver, hrole]
  have hself : (x.take role k place).outstanding role = (x.outstanding role).erase place := by
    simp [Exchange.take]
  exact { h with
    outstanding := fun role' other hother => h.outstanding role' other ((hout role').subset hother)
    outstanding_nodup := fun role' => (h.outstanding_nodup role').sublist (hout role')
    delivered_lt := mem_delivered_lt h hplace
    delivered := by
      intro role'
      rcases Role.eq_or_eq_other role role' with rfl | rfl
      · refine delivered_cons h hplace rfl (by simp [Exchange.take, Exchange.deliver])
          ⟨(h.outstanding role' place hmem).2, ?_⟩ ?_
        · rw [hself]
          exact (h.outstanding_nodup role').not_mem_erase
        · intro other _ hne
          rw [hself, List.mem_erase_of_ne hne]
          rfl
      · intro k' other hother
        simpa [Exchange.take, Exchange.deliver, role.other_ne, Passed] using
          h.delivered role.other k' other hother }

section AcceptCurrent

variable (x role) (k number : ℕ)

theorem received_acceptCurrent : (x.acceptCurrent role k number).received role = number + 1 := by
  simp [acceptCurrent]

theorem outstanding_acceptCurrent : (x.acceptCurrent role k number).outstanding role =
    x.outstanding role ++ places (x.turn role - 1) (x.received role) number := by
  simp [acceptCurrent]

theorem outstanding_acceptCurrent_other :
    (x.acceptCurrent role k number).outstanding role.other = x.outstanding role.other := by
  simp [acceptCurrent, Exchange.deliver, role.other_ne]

theorem passed_acceptCurrent (place : Place) :
    (x.acceptCurrent role k number).Passed role place ↔ place.chain + 1 < x.turn role ∨
      place.chain + 1 = x.turn role ∧ place.number < number + 1 := by
  simp [Passed, acceptCurrent, Exchange.deliver]

theorem passed_acceptCurrent_other (place : Place) :
    (x.acceptCurrent role k number).Passed role.other place ↔ x.Passed role.other place := by
  simp [Passed, acceptCurrent, Exchange.deliver, role.other_ne]

variable {x role} {k number}

theorem Valid.nodup_acceptCurrent (h : x.Valid) :
    ((x.acceptCurrent role k number).outstanding role).Nodup := by
  rw [outstanding_acceptCurrent]
  refine (h.outstanding_nodup role).append (nodup_places _ _ _) ?_
  intro place hmem hnew
  obtain ⟨hchain, hfirst, -⟩ := mem_places.mp hnew
  rcases (h.outstanding role place hmem).2 with hold | ⟨-, hold⟩
  · omega
  · omega

theorem Valid.taken_acceptCurrent (h : x.Valid) (hturn : x.turn role ≠ 0)
    (hnumber : x.received role ≤ number) :
    (x.acceptCurrent role k number).Passed role ⟨x.turn role - 1, number⟩ ∧
      ⟨x.turn role - 1, number⟩ ∉ (x.acceptCurrent role k number).outstanding role := by
  constructor
  · rw [passed_acceptCurrent]
    exact .inr ⟨by simp only; omega, Nat.lt_succ_self _⟩
  · rw [outstanding_acceptCurrent, List.mem_append, mem_places]
    rintro (hmem | ⟨-, -, hlt⟩)
    · rcases (h.outstanding role _ hmem).2 with hold | ⟨-, hold⟩
      · simp only at hold
        omega
      · simp only at hold
        omega
    · exact lt_irrefl _ hlt

theorem status_acceptCurrent (hturn : x.turn role ≠ 0) (hnumber : x.received role ≤ number)
    {place : Place} (hne : place ≠ ⟨x.turn role - 1, number⟩) :
    (x.acceptCurrent role k number).Passed role place ∧
        place ∉ (x.acceptCurrent role k number).outstanding role ↔
      x.Passed role place ∧ place ∉ x.outstanding role := by
  rw [passed_acceptCurrent, outstanding_acceptCurrent, List.mem_append, mem_places]
  unfold Passed
  by_cases hnew : place.chain + 1 = x.turn role ∧ x.received role ≤ place.number
  · have hnumber : place.number ≠ number := by
      intro heq
      apply hne
      rw [← heq, show x.turn role - 1 = place.chain by omega]
    constructor
    · rintro ⟨hpassed, hout⟩
      refine absurd (.inr ⟨by omega, hnew.2, ?_⟩) hout
      omega
    · rintro ⟨hpassed, -⟩
      omega
  · have hout : ¬ (place.chain = x.turn role - 1 ∧ x.received role ≤ place.number ∧
        place.number < number) := by
      intro hmem
      exact hnew ⟨by omega, hmem.2.1⟩
    simp only [hout, or_false]
    refine and_congr_left fun _ => ?_
    omega

theorem Valid.acceptCurrent (h : x.Valid) (hturn : x.turn role ≠ 0)
    (hplace : (x.log role.other)[k]? = some ⟨x.turn role - 1, number⟩)
    (hnumber : x.received role ≤ number) : (x.acceptCurrent role k number).Valid := by
  have hcount : number < x.count (x.turn role - 1) :=
    (h.log role.other _ (List.mem_of_getElem? hplace)).2.2.2
  exact { h with
    received := by
      intro role' chain hchain
      rcases Role.eq_or_eq_other role role' with rfl | rfl
      · have heq : chain = x.turn role' - 1 := by
          have : x.turn role' = chain + 1 := hchain
          omega
        subst heq
        rw [received_acceptCurrent]
        exact hcount
      · simpa [Exchange.acceptCurrent, Exchange.deliver, role.other_ne] using
          h.received role.other chain hchain
    outstanding := by
      intro role' place hmem
      rcases Role.eq_or_eq_other role role' with rfl | rfl
      · rw [outstanding_acceptCurrent, List.mem_append] at hmem
        rw [passed_acceptCurrent]
        rcases hmem with hmem | hmem
        · obtain ⟨hlt, hold | ⟨hchain, hold⟩⟩ := h.outstanding role' place hmem
          · exact ⟨hlt, .inl hold⟩
          · exact ⟨hlt, .inr ⟨hchain, by omega⟩⟩
        · obtain ⟨hchain, -, hlast⟩ := mem_places.mp hmem
          refine ⟨?_, .inr ⟨by omega, by omega⟩⟩
          change place.chain < x.turn role'
          omega
      · rw [outstanding_acceptCurrent_other] at hmem
        rw [passed_acceptCurrent_other]
        exact h.outstanding role.other place hmem
    outstanding_nodup := by
      intro role'
      rcases Role.eq_or_eq_other role role' with rfl | rfl
      · exact h.nodup_acceptCurrent
      · rw [outstanding_acceptCurrent_other]
        exact h.outstanding_nodup role.other
    delivered_lt := mem_delivered_lt h hplace
    delivered := by
      intro role'
      rcases Role.eq_or_eq_other role role' with rfl | rfl
      · exact delivered_cons h hplace rfl
          (by simp [Exchange.acceptCurrent, Exchange.deliver])
          (h.taken_acceptCurrent hturn hnumber)
          fun _ _ hne => status_acceptCurrent hturn hnumber hne
      · intro k' place hplace'
        rw [passed_acceptCurrent_other, outstanding_acceptCurrent_other]
        simpa [Exchange.acceptCurrent, Exchange.deliver, role.other_ne] using
          h.delivered role.other k' place hplace' }

end AcceptCurrent

theorem mem_rest {place : Place} : place ∈ x.rest role ↔
    place.chain + 1 = x.turn role ∧ x.received role ≤ place.number ∧
      place.number < x.count place.chain := by
  unfold rest
  split
  · rename_i hturn
    simp only [List.not_mem_nil, false_iff]
    omega
  · rename_i hturn
    have hprevious : x.previous (x.turn role + 1) = x.count (x.turn role - 1) := by
      unfold previous
      rw [if_neg (by omega)]
      rfl
    rw [mem_places, hprevious]
    constructor
    · rintro ⟨hchain, hfirst, hlast⟩
      rw [hchain]
      exact ⟨by omega, hfirst, hlast⟩
    · rintro ⟨hchain, hfirst, hlast⟩
      rw [show x.turn role - 1 = place.chain by omega]
      exact ⟨rfl, hfirst, hlast⟩

theorem nodup_rest (x : Exchange) (role : Role) : (x.rest role).Nodup := by
  unfold rest
  split
  · exact List.nodup_nil
  · exact nodup_places _ _ _

section AcceptNext

variable (x role) (k number : ℕ)

theorem turn_acceptNext : (x.acceptNext role k number).turn role = x.turn role + 2 := by
  simp [acceptNext]

theorem turn_acceptNext_other :
    (x.acceptNext role k number).turn role.other = x.turn role.other := by
  simp [acceptNext, Exchange.deliver, role.other_ne]

theorem flag_acceptNext : (x.acceptNext role k number).flag role = true := by
  simp [acceptNext]

theorem flag_acceptNext_other :
    (x.acceptNext role k number).flag role.other = x.flag role.other := by
  simp [acceptNext, Exchange.deliver, role.other_ne]

theorem received_acceptNext : (x.acceptNext role k number).received role = number + 1 := by
  simp [acceptNext]

theorem outstanding_acceptNext : (x.acceptNext role k number).outstanding role =
    x.outstanding role ++ (x.rest role ++ places (x.turn role + 1) 0 number) := by
  simp [acceptNext]

theorem outstanding_acceptNext_other :
    (x.acceptNext role k number).outstanding role.other = x.outstanding role.other := by
  simp [acceptNext, Exchange.deliver, role.other_ne]

theorem passed_acceptNext (place : Place) :
    (x.acceptNext role k number).Passed role place ↔ place.chain + 1 < x.turn role + 2 ∨
      place.chain + 1 = x.turn role + 2 ∧ place.number < number + 1 := by
  simp [Passed, acceptNext]

theorem passed_acceptNext_other (place : Place) :
    (x.acceptNext role k number).Passed role.other place ↔ x.Passed role.other place := by
  simp [Passed, acceptNext, Exchange.deliver, role.other_ne]

variable {x role} {k number}

theorem Valid.of_next (h : x.Valid) (hlog : ⟨x.turn role + 1, number⟩ ∈ x.log role.other) :
    x.flag role.other = false ∧ x.turn role.other = x.turn role + 1 ∧
      x.newest = x.turn role + 1 := by
  obtain ⟨-, -, hflagOther, -⟩ := h.log role.other _ hlog
  have hturn : x.turn role.other = x.turn role + 1 := by
    rcases h.log_cases hlog with hlt | ⟨-, -, hturn⟩
    · simp only at hlt
      omega
    · exact hturn
  have hstarted : x.flag role.other = false := by
    by_contra hother
    exact hflagOther (by simpa using hother) hturn.symm
  refine ⟨hstarted, hturn, ?_⟩
  obtain ⟨newest, -, heq⟩ := h.newest_sent
  have hle := h.newest' role.other hstarted
  rcases Role.eq_or_eq_other role newest with rfl | rfl
  · omega
  · omega

theorem Valid.outstanding_of_next (h : x.Valid) {place : Place}
    (hmem : place ∈ (x.acceptNext role k number).outstanding role) :
    place.chain < x.turn role + 2 ∧ (x.acceptNext role k number).Passed role place := by
  rw [outstanding_acceptNext, List.mem_append, List.mem_append] at hmem
  rw [passed_acceptNext]
  rcases hmem with hmem | hmem | hmem
  · have hlt := (h.outstanding role place hmem).1
    exact ⟨by omega, .inl (by omega)⟩
  · have hchain := (mem_rest.mp hmem).1
    exact ⟨by omega, .inl (by omega)⟩
  · obtain ⟨hchain, -, hlast⟩ := mem_places.mp hmem
    exact ⟨by omega, .inr ⟨by omega, by omega⟩⟩

theorem Valid.nodup_acceptNext (h : x.Valid) :
    ((x.acceptNext role k number).outstanding role).Nodup := by
  rw [outstanding_acceptNext]
  refine (h.outstanding_nodup role).append
    ((nodup_rest x role).append (nodup_places _ _ _) ?_) ?_
  · intro place hrest hnew
    have hchain := (mem_rest.mp hrest).1
    have hchain' := (mem_places.mp hnew).1
    omega
  · intro place hmem hnew
    obtain ⟨hlt, hold⟩ := h.outstanding role place hmem
    rcases List.mem_append.mp hnew with hnew | hnew
    · obtain ⟨hchain, hfirst, -⟩ := mem_rest.mp hnew
      rcases hold with hold | ⟨-, hold⟩
      · omega
      · omega
    · have hchain := (mem_places.mp hnew).1
      omega

theorem Valid.taken_acceptNext (h : x.Valid) :
    (x.acceptNext role k number).Passed role ⟨x.turn role + 1, number⟩ ∧
      ⟨x.turn role + 1, number⟩ ∉ (x.acceptNext role k number).outstanding role := by
  constructor
  · rw [passed_acceptNext]
    exact .inr ⟨rfl, Nat.lt_succ_self _⟩
  · rw [outstanding_acceptNext, List.mem_append, List.mem_append, mem_rest, mem_places]
    rintro (hmem | ⟨hchain, -⟩ | ⟨-, -, hlt⟩)
    · have hlt := (h.outstanding role _ hmem).1
      simp only at hlt
      omega
    · simp only at hchain
      omega
    · exact lt_irrefl _ hlt

theorem Valid.status_acceptNext (h : x.Valid) {place : Place} (hmem : place ∈ x.log role.other)
    (hne : place ≠ ⟨x.turn role + 1, number⟩) :
    (x.acceptNext role k number).Passed role place ∧
        place ∉ (x.acceptNext role k number).outstanding role ↔
      x.Passed role place ∧ place ∉ x.outstanding role := by
  have hnumber := (h.log role.other place hmem).2.2.2
  rw [passed_acceptNext, outstanding_acceptNext, List.mem_append, List.mem_append, mem_rest,
    mem_places]
  unfold Passed
  rcases h.log_cases hmem with hlt | ⟨hchain, -, -⟩
  · by_cases hold : place.chain + 1 = x.turn role ∧ x.received role ≤ place.number
    · constructor
      · rintro ⟨-, hout⟩
        exact absurd (.inr (.inl ⟨hold.1, hold.2, hnumber⟩)) hout
      · rintro ⟨hpassed, -⟩
        omega
    · constructor
      · rintro ⟨-, hout⟩
        exact ⟨by omega, fun hmem => hout (.inl hmem)⟩
      · rintro ⟨-, hout⟩
        refine ⟨.inl (by omega), ?_⟩
        rintro (hmem | ⟨hchain, hfirst, -⟩ | ⟨hchain, -⟩)
        · exact hout hmem
        · exact hold ⟨hchain, hfirst⟩
        · omega
  · have hne' : place.number ≠ number := by
      intro heq
      exact hne (by rw [← heq, ← hchain])
    constructor
    · rintro ⟨hpassed, hout⟩
      exact absurd (.inr (.inr ⟨hchain, Nat.zero_le _, by omega⟩)) hout
    · rintro ⟨hpassed, -⟩
      omega

theorem Valid.acceptNext (h : x.Valid)
    (hplace : (x.log role.other)[k]? = some ⟨x.turn role + 1, number⟩) :
    (x.acceptNext role k number).Valid := by
  have hlog := List.mem_of_getElem? hplace
  have hcount : number < x.count (x.turn role + 1) := (h.log role.other _ hlog).2.2.2
  obtain ⟨hstarted, hturn, hnewest⟩ := h.of_next hlog
  have hflagOther : (x.acceptNext role k number).flag role.other = false := by
    rw [flag_acceptNext_other, hstarted]
  exact
    { sender := by
        intro role'
        rcases Role.eq_or_eq_other role role' with rfl | rfl
        · rw [turn_acceptNext, chainSender_add_two]
          exact h.sender role'
        · rw [turn_acceptNext_other]
          exact h.sender role.other
      adjacent := by
        intro role'
        rcases Role.eq_or_eq_other role role' with rfl | rfl
        · rw [turn_acceptNext, turn_acceptNext_other]
          omega
        · rw [turn_acceptNext_other, Role.other_other, turn_acceptNext]
          omega
      flag := by
        intro role' hflag'
        rcases Role.eq_or_eq_other role role' with rfl | rfl
        · rw [turn_acceptNext, turn_acceptNext_other]
          omega
        · rw [hflagOther] at hflag'
          cases hflag'
      newest := by
        intro role' hflag'
        rcases Role.eq_or_eq_other role role' with rfl | rfl
        · rw [turn_acceptNext]
          exact congrArg (· + 1) hnewest.symm
        · rw [hflagOther] at hflag'
          cases hflag'
      newest' := by
        intro role' hflag'
        rcases Role.eq_or_eq_other role role' with rfl | rfl
        · rw [flag_acceptNext] at hflag'
          cases hflag'
        · rw [turn_acceptNext_other]
          exact h.newest' role.other hstarted
      newest_sent :=
        ⟨role.other, hflagOther, by rw [turn_acceptNext_other, hturn]; exact hnewest.symm⟩
      received := by
        intro role' chain hchain
        rcases Role.eq_or_eq_other role role' with rfl | rfl
        · have heq : chain = x.turn role' + 1 := by
            rw [turn_acceptNext] at hchain
            omega
          subst heq
          rw [received_acceptNext]
          exact hcount
        · rw [turn_acceptNext_other] at hchain
          simpa [Exchange.acceptNext, Exchange.deliver, role.other_ne] using
            h.received role.other chain hchain
      unstarted := h.unstarted
      count_lt := h.count_lt
      log := by
        intro role' place hmem
        obtain ⟨hsender, hle, hne, hnumber⟩ := h.log role' place hmem
        rcases Role.eq_or_eq_other role role' with rfl | rfl
        · rw [turn_acceptNext]
          exact ⟨hsender, by omega, fun _ => by omega, hnumber⟩
        · rw [turn_acceptNext_other, hflagOther]
          exact ⟨hsender, hle, (fun hfalse => by cases hfalse), hnumber⟩
      log_nodup := h.log_nodup
      outstanding := by
        intro role' place hmem
        rcases Role.eq_or_eq_other role role' with rfl | rfl
        · rw [turn_acceptNext]
          exact h.outstanding_of_next hmem
        · rw [outstanding_acceptNext_other] at hmem
          rw [passed_acceptNext_other, turn_acceptNext_other]
          exact h.outstanding role.other place hmem
      outstanding_nodup := by
        intro role'
        rcases Role.eq_or_eq_other role role' with rfl | rfl
        · exact h.nodup_acceptNext
        · rw [outstanding_acceptNext_other]
          exact h.outstanding_nodup role.other
      delivered_lt := mem_delivered_lt h hplace
      delivered := by
        intro role'
        rcases Role.eq_or_eq_other role role' with rfl | rfl
        · exact delivered_cons h hplace rfl (by simp [Exchange.acceptNext, Exchange.deliver])
            h.taken_acceptNext fun _ hmem hne => h.status_acceptNext hmem hne
        · intro k' place hplace'
          rw [passed_acceptNext_other, outstanding_acceptNext_other]
          simpa [Exchange.acceptNext, Exchange.deliver, role.other_ne] using
            h.delivered role.other k' place hplace' }

end AcceptNext

end Preservation

end Exchange

end Molch
