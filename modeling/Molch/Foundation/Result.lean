import Mathlib.Data.Fin.Tuple.Basic
import Mathlib.Data.List.Forall2

namespace Result

variable {ε ε' α β γ : Type}

@[simp] theorem ok_bind (a : α) (f : α → Except ε β) : (Except.ok a >>= f) = f a := rfl

@[simp] theorem error_bind (e : ε) (f : α → Except ε β) :
    (Except.error e >>= f) = Except.error e := rfl

@[simp] theorem pure_eq_ok (a : α) : (pure a : Except ε α) = Except.ok a := rfl

@[simp] theorem map_ok (f : α → β) (a : α) :
    (Except.ok a : Except ε α).map f = Except.ok (f a) := rfl

@[simp] theorem map_error (f : α → β) (e : ε) :
    (Except.error e : Except ε α).map f = Except.error e := rfl

theorem bind_eq_ok {x : Except ε α} {f : α → Except ε β} {b : β} :
    (x >>= f) = .ok b ↔ ∃ a, x = .ok a ∧ f a = .ok b := by
  cases x with
  | error e =>
      constructor
      · intro h
        cases h
      · rintro ⟨a, h, -⟩
        cases h
  | ok a =>
      constructor
      · intro h
        exact ⟨a, rfl, h⟩
      · rintro ⟨a', h, hf⟩
        cases h
        exact hf

theorem bind_eq_error {x : Except ε α} {f : α → Except ε β} {e : ε} :
    (x >>= f) = .error e ↔ x = .error e ∨ ∃ a, x = .ok a ∧ f a = .error e := by
  cases x with
  | error e' => simp
  | ok a => simp

theorem map_eq_ok {x : Except ε α} {f : α → β} {b : β} :
    x.map f = .ok b ↔ ∃ a, x = .ok a ∧ f a = b := by
  cases x with
  | error e => simp
  | ok a => simp

theorem map_eq_error {x : Except ε α} {f : α → β} {e : ε} :
    x.map f = .error e ↔ x = .error e := by
  cases x with
  | error e' => simp
  | ok a => simp

theorem mapM_eq_ok_iff {f : α → Except ε β} {l : List α} {bs : List β} :
    l.mapM f = .ok bs ↔ List.Forall₂ (fun a b => f a = .ok b) l bs := by
  induction l generalizing bs with
  | nil =>
      rw [List.mapM_nil, pure_eq_ok, List.forall₂_nil_left_iff]
      constructor
      · intro h
        cases h
        rfl
      · rintro rfl
        rfl
  | cons a l ih =>
      rw [List.mapM_cons, bind_eq_ok, List.forall₂_cons_left_iff]
      constructor
      · rintro ⟨b, hb, hrest⟩
        obtain ⟨bs', hbs', hpure⟩ := bind_eq_ok.mp hrest
        cases hpure
        exact ⟨b, bs', hb, ih.mp hbs', rfl⟩
      · rintro ⟨b, bs', hb, hbs', rfl⟩
        exact ⟨b, hb, bind_eq_ok.mpr ⟨bs', ih.mpr hbs', rfl⟩⟩

theorem mapM_of_mapM {f : α → Except ε β} {g : β → Except ε' γ} {h : α → γ} {l : List α}
    (hundo : ∀ a ∈ l, ∀ b, f a = .ok b → g b = .ok (h a)) {bs : List β}
    (hl : l.mapM f = .ok bs) : bs.mapM g = .ok (l.map h) := by
  rw [mapM_eq_ok_iff] at hl ⊢
  induction hl with
  | nil => exact .nil
  | cons hab _ ih =>
      exact .cons (hundo _ List.mem_cons_self _ hab)
        (ih fun a ha => hundo a (List.mem_cons_of_mem _ ha))

theorem mapM_undoes_iff {f : α → Except ε β} {g : β → Except ε' α} {p : α → Prop} {l : List α}
    (hundo : ∀ a ∈ l, ∀ b, f a = .ok b → (g b = .ok a ↔ p a)) {bs : List β}
    (hl : l.mapM f = .ok bs) : bs.mapM g = .ok l ↔ ∀ a ∈ l, p a := by
  rw [mapM_eq_ok_iff] at hl ⊢
  induction hl with
  | nil => exact iff_of_true .nil (by simp)
  | cons hab _ ih =>
      rw [List.forall₂_cons, hundo _ List.mem_cons_self _ hab, List.forall_mem_cons,
        ih fun a ha => hundo a (List.mem_cons_of_mem _ ha)]

theorem mapM_congr {f : α → Except ε β} {g : γ → Except ε β} {h : α → γ} {l : List α}
    (hsame : ∀ a ∈ l, g (h a) = f a) : (l.map h).mapM g = l.mapM f := by
  induction l with
  | nil => rfl
  | cons a l ih =>
      rw [List.map_cons, List.mapM_cons, List.mapM_cons, hsame a List.mem_cons_self,
        ih fun a' ha' => hsame a' (List.mem_cons_of_mem _ ha')]

theorem exists_mapM_eq_ok {f : α → Except ε β} {l : List α}
    (h : ∀ a ∈ l, ∃ b, f a = .ok b) : ∃ bs, l.mapM f = .ok bs := by
  induction l with
  | nil => exact ⟨[], rfl⟩
  | cons a l ih =>
      obtain ⟨b, hb⟩ := h a List.mem_cons_self
      obtain ⟨bs, hbs⟩ := ih fun a ha => h a (List.mem_cons_of_mem _ ha)
      refine ⟨b :: bs, ?_⟩
      rw [List.mapM_cons, hb, hbs]
      rfl

theorem mem_of_mapM_eq_ok {f : α → Except ε β} {l : List α} {bs : List β}
    (h : l.mapM f = .ok bs) {b : β} (hb : b ∈ bs) : ∃ a ∈ l, f a = .ok b := by
  rw [mapM_eq_ok_iff] at h
  induction h with
  | nil => cases hb
  | cons hab _ ih =>
      rcases List.mem_cons.mp hb with rfl | hb
      · exact ⟨_, List.mem_cons_self, hab⟩
      · obtain ⟨a, ha, hfa⟩ := ih hb
        exact ⟨a, List.mem_cons_of_mem _ ha, hfa⟩

theorem mem_of_mapM_eq_error {f : α → Except ε β} {l : List α} {e : ε}
    (h : l.mapM f = .error e) : ∃ a ∈ l, f a = .error e := by
  induction l with
  | nil => cases h
  | cons a l ih =>
      rw [List.mapM_cons] at h
      cases hfa : f a with
      | error e' =>
          rw [hfa] at h
          cases h
          exact ⟨a, List.mem_cons_self, hfa⟩
      | ok b =>
          rw [hfa, ok_bind] at h
          cases hfl : l.mapM f with
          | error e' =>
              rw [hfl] at h
              cases h
              obtain ⟨a', ha', hfa'⟩ := ih hfl
              exact ⟨a', List.mem_cons_of_mem _ ha', hfa'⟩
          | ok bs =>
              rw [hfl] at h
              cases h

def sequence : {n : ℕ} → (Fin n → Except ε α) → Except ε (Fin n → α)
  | 0, _ => .ok Fin.elim0
  | _ + 1, f => do
      let first ← f 0
      let rest ← sequence fun i => f i.succ
      pure (Fin.cons first rest)

theorem sequence_eq_ok_iff {n : ℕ} {f : Fin n → Except ε α} {values : Fin n → α} :
    sequence f = .ok values ↔ ∀ i, f i = .ok (values i) := by
  induction n with
  | zero =>
      constructor
      · intro _ i
        exact i.elim0
      · intro _
        exact congrArg Except.ok (funext fun i => i.elim0)
  | succ n ih =>
      rw [sequence, bind_eq_ok]
      constructor
      · rintro ⟨first, hfirst, h⟩
        obtain ⟨rest, hrest, hpure⟩ := bind_eq_ok.mp h
        cases hpure
        intro i
        refine Fin.cases ?_ ?_ i
        · rw [Fin.cons_zero]
          exact hfirst
        · intro i
          rw [Fin.cons_succ]
          exact ih.mp hrest i
      · intro h
        refine ⟨values 0, h 0, bind_eq_ok.mpr ⟨fun i => values i.succ, ?_, ?_⟩⟩
        · exact ih.mpr fun i => h i.succ
        · exact congrArg Except.ok (Fin.cons_self_tail values)

end Result
