import Molch.Foundation.Varint

namespace Wire

variable {α : Type}

/-- A member before it is parsed. The data is the memory from the member on, with the prefix
that says how long the rest of the member is. -/
structure ScannedMember (α : Type) where
  tag : ℕ
  wireType : ℕ
  lengthPrefixLen : ℕ
  len : ℕ
  data : List α

section Scanning

variable (value : α → UInt8)

/-- `parse_tag_and_wiretype`: how many bytes the tag has, the number of the field and the wire
type. -/
def parseTagAndWiretype (len : ℕ) (data : List α) : Except Defect (ℕ × ℕ × ℕ) := do
  let used ← scanVarint value (min len 5) data
  pure (used, digitsValue value (data.take used) / 8, digitsValue value (data.take used) % 8)

/-- `scan_length_prefixed_data`: the length of the prefix and of the member with its prefix.
A length of 0 is an error to the caller. -/
def scanLengthPrefixedData (len : ℕ) (data : List α) : Except Defect (ℕ × ℕ) := do
  let prefixLen ← scanVarint value (min len 5) data
  let total := (prefixLen + digitsValue value (data.take prefixLen)) % 2 ^ 32
  if len < total ∨ total = 0 then .error .malformed
  else pure (prefixLen, total)

/-- The length of a member, with the length of its prefix. -/
def scanPayload (wireType rem : ℕ) (data : List α) : Except Defect (ℕ × ℕ) :=
  match wireType with
  | 0 => (scanVarint value (min rem 10) data).map fun len => (0, len)
  | 1 => if rem < 8 then .error .malformed else .ok (0, 8)
  | 2 => scanLengthPrefixedData value rem data
  | 5 => if rem < 4 then .error .malformed else .ok (0, 4)
  | _ => .error .malformed

/-- The next member, and how many bytes it takes with its tag. The pointer to the data moves
behind the member. -/
def scanMember (rem : ℕ) (data : List α) : Except Defect (ScannedMember α × ℕ) := do
  let (used, tag, wireType) ← parseTagAndWiretype value rem data
  let (prefixLen, len) ← scanPayload value wireType (rem - used) (data.drop used)
  if (data.drop used).length < len then .error .outOfBounds
  else pure (⟨tag, wireType, prefixLen, len, data.drop used⟩, used + len)

def scan : (slots rem : ℕ) → List α → Except Defect (List (ScannedMember α))
  | _, 0, _ => .ok []
  | 0, rem + 1, data => do
      let _ ← scanMember value (rem + 1) data
      .error .malformed
  | slots + 1, rem + 1, data => do
      let (member, used) ← scanMember value (rem + 1) data
      let members ← scan slots (rem + 1 - used) (data.drop used)
      pure (member :: members)

/-- The member lies within the memory, and its prefix within the member. -/
structure ScannedMember.Within (member : ScannedMember α) : Prop where
  len : member.len ≤ member.data.length
  width : member.wireType = 5 → member.len = 4
  prefix_le : member.lengthPrefixLen ≤ member.len

theorem scan_zero (slots : ℕ) (data : List α) : scan value slots 0 data = .ok [] := by
  cases slots <;> rfl

section Bounds

variable {value} {rem : ℕ} {data : List α}

theorem parseTagAndWiretype_bounds {used tag wireType : ℕ}
    (h : parseTagAndWiretype value rem data = .ok (used, tag, wireType)) :
    0 < used ∧ used ≤ rem ∧ used ≤ data.length := by
  obtain ⟨len, hscan, h⟩ := Result.bind_eq_ok.mp h
  cases h
  have hbounds := scanVarint_bounds value hscan
  omega

theorem scanPayload_bounds {wireType prefixLen len : ℕ}
    (h : scanPayload value wireType rem data = .ok (prefixLen, len)) :
    0 < len ∧ len ≤ rem ∧ (wireType = 5 → len = 4) := by
  unfold scanPayload at h
  split at h
  · obtain ⟨len', hscan, h⟩ := Result.map_eq_ok.mp h
    cases h
    have hbounds := scanVarint_bounds value hscan
    exact ⟨by omega, by omega, by simp⟩
  · split at h
    · cases h
    · cases h
      exact ⟨by omega, by omega, by simp⟩
  · obtain ⟨prefixLen', hscan, h⟩ := Result.bind_eq_ok.mp h
    simp only at h
    split at h
    · cases h
    · cases h
      exact ⟨by omega, by omega, by simp⟩
  · split at h
    · cases h
    · cases h
      exact ⟨by omega, by omega, fun _ => rfl⟩
  · cases h

theorem scanMember_bounds {member : ScannedMember α} {used : ℕ}
    (h : scanMember value rem data = .ok (member, used)) :
    2 ≤ used ∧ used ≤ rem ∧ used ≤ data.length ∧ member.data <:+ data := by
  obtain ⟨⟨tagLen, tag, wireType⟩, htag, h⟩ := Result.bind_eq_ok.mp h
  obtain ⟨⟨prefixLen, len⟩, hpayload, h⟩ := Result.bind_eq_ok.mp h
  simp only at h
  split at h
  · cases h
  · rename_i hwithin
    cases h
    have htagBounds := parseTagAndWiretype_bounds htag
    have hdrop : (data.drop tagLen).length = data.length - tagLen := List.length_drop
    obtain ⟨hpos, hlen, -⟩ := scanPayload_bounds hpayload
    exact ⟨by omega, by omega, by omega, List.drop_suffix _ _⟩

theorem scanMember_ne_ok {b : α} {bytes : List α} (hb : (value b).toNat % 8 = 7)
    (found : ScannedMember α × ℕ) : scanMember value rem (b :: bytes) ≠ .ok found := by
  intro h
  obtain ⟨⟨used, tag, wireType⟩, htag, h⟩ := Result.bind_eq_ok.mp h
  obtain ⟨payload, hpayload, -⟩ := Result.bind_eq_ok.mp h
  obtain ⟨used', hscan, htag⟩ := Result.bind_eq_ok.mp htag
  cases htag
  obtain ⟨used, rfl⟩ : ∃ n, used = n + 1 :=
    ⟨used - 1, by have := scanVarint_bounds value hscan; omega⟩
  have hseven : digitsValue value ((b :: bytes).take (used + 1)) % 8 = 7 := by
    rw [List.take_succ_cons, digitsValue]
    omega
  rw [hseven] at hpayload
  cases hpayload

/-- A length that wraps around lets the member end inside of its own prefix. All bytes that can
follow there are no tags. -/
theorem scanLengthPrefixedData_wraps {prefixLen len : ℕ}
    (h : scanLengthPrefixedData value rem data = .ok (prefixLen, len)) (hwraps : len < prefixLen) :
    len < rem ∧ ∃ b bytes, data.drop len = b :: bytes ∧ (value b).toNat % 8 = 7 := by
  obtain ⟨prefixLen', hscan, h⟩ := Result.bind_eq_ok.mp h
  have hbounds := scanVarint_bounds value hscan
  replace hscan := scanVarint_mono value hscan (min_le_right _ _)
  simp only at h
  split at h
  · cases h
  · rename_i htotal
    cases h
    refine ⟨by omega, ?_⟩
    have hlt := digitsValue_lt value (data.take prefixLen)
    rw [List.length_take_of_le hbounds.2.2] at hlt
    have hfive : prefixLen = 5 := by
      by_contra hshort
      have hpow : 128 ^ prefixLen ≤ 128 ^ 4 := Nat.pow_le_pow_right (by decide) (by omega)
      omega
    subst hfive
    obtain ⟨b0, data, rfl, h0, hscan⟩ := exists_cons_of_scanVarint value hscan
    obtain ⟨b1, data, rfl, h1, hscan⟩ := exists_cons_of_scanVarint value hscan
    obtain ⟨b2, data, rfl, h2, hscan⟩ := exists_cons_of_scanVarint value hscan
    obtain ⟨b3, data, rfl, h3, hscan⟩ := exists_cons_of_scanVarint value hscan
    obtain ⟨b4, data, rfl⟩ : ∃ b4 rest, data = b4 :: rest := by
      cases data with
      | nil => cases hscan
      | cons b4 rest => exact ⟨b4, rest, rfl⟩
    have hvalue : digitsValue value ((b0 :: b1 :: b2 :: b3 :: b4 :: data).take 5) =
        (value b0).toNat % 128 + 128 * ((value b1).toNat % 128 + 128 * ((value b2).toNat % 128 +
          128 * ((value b3).toNat % 128 + 128 * ((value b4).toNat % 128)))) := rfl
    rw [hvalue] at hwraps htotal ⊢
    have hb1 := (value b1).toNat_lt
    have hb2 := (value b2).toNat_lt
    have hb3 := (value b3).toNat_lt
    -- all digits but the lowest one are as great as they can be
    have hdigits : (value b1).toNat % 128 = 127 ∧ (value b2).toNat % 128 = 127 ∧
        (value b3).toNat % 128 = 127 ∧ (value b4).toNat % 8 = 7 := by omega
    obtain ⟨hd1, hd2, hd3, hd4⟩ := hdigits
    generalize (5 + _) % 2 ^ 32 = total at hwraps htotal ⊢
    obtain rfl | rfl | rfl | rfl : total = 1 ∨ total = 2 ∨ total = 3 ∨ total = 4 := by omega
    · exact ⟨b1, _, rfl, by omega⟩
    · exact ⟨b2, _, rfl, by omega⟩
    · exact ⟨b3, _, rfl, by omega⟩
    · exact ⟨b4, _, rfl, hd4⟩

theorem scanPayload_wraps {wireType prefixLen len : ℕ}
    (h : scanPayload value wireType rem data = .ok (prefixLen, len)) (hwraps : len < prefixLen) :
    len < rem ∧ ∃ b bytes, data.drop len = b :: bytes ∧ (value b).toNat % 8 = 7 := by
  unfold scanPayload at h
  split at h
  · obtain ⟨len', -, h⟩ := Result.map_eq_ok.mp h
    cases h
    cases hwraps
  · split at h
    · cases h
    · cases h
      cases hwraps
  · exact scanLengthPrefixedData_wraps h hwraps
  · split at h
    · cases h
    · cases h
      cases hwraps
  · cases h

theorem scanMember_within {member : ScannedMember α} {used : ℕ}
    (h : scanMember value rem data = .ok (member, used)) :
    member.Within ∨ used < rem ∧ ∀ rem' found,
      scanMember value rem' (data.drop used) ≠ .ok found := by
  obtain ⟨⟨tagLen, tag, wireType⟩, htag, h⟩ := Result.bind_eq_ok.mp h
  obtain ⟨⟨prefixLen, len⟩, hpayload, h⟩ := Result.bind_eq_ok.mp h
  simp only at h
  split at h
  · cases h
  · rename_i hwithin
    cases h
    obtain ⟨-, -, hwidth⟩ := scanPayload_bounds hpayload
    rcases Nat.lt_or_ge len prefixLen with hwraps | hprefix
    · right
      obtain ⟨hlt, b, bytes, hdrop, hb⟩ := scanPayload_wraps hpayload hwraps
      refine ⟨by omega, fun rem' found => ?_⟩
      rw [← List.drop_drop, hdrop]
      exact scanMember_ne_ok hb found
    · exact .inl ⟨not_lt.mp hwithin, hwidth, hprefix⟩

theorem scan_eq_ok_pos {slots : ℕ} (hrem : 0 < rem) {members : List (ScannedMember α)}
    (h : scan value slots rem data = .ok members) :
    ∃ found, scanMember value rem data = .ok found := by
  obtain ⟨rem, rfl⟩ : ∃ n, rem = n + 1 := ⟨rem - 1, by omega⟩
  cases slots with
  | zero =>
      obtain ⟨found, hfound, -⟩ := Result.bind_eq_ok.mp h
      exact ⟨found, hfound⟩
  | succ slots =>
      obtain ⟨found, hfound, -⟩ := Result.bind_eq_ok.mp h
      exact ⟨found, hfound⟩

theorem two_mul_length_of_scan {slots : ℕ} {members : List (ScannedMember α)}
    (h : scan value slots rem data = .ok members) : 2 * members.length ≤ rem := by
  induction slots generalizing rem data members with
  | zero =>
      cases rem with
      | zero =>
          cases h
          exact le_rfl
      | succ rem =>
          obtain ⟨_, _, h⟩ := Result.bind_eq_ok.mp h
          cases h
  | succ slots ih =>
      cases rem with
      | zero =>
          cases h
          exact le_rfl
      | succ rem =>
          obtain ⟨⟨first, used⟩, hfirst, h⟩ := Result.bind_eq_ok.mp h
          obtain ⟨rest, hrest, h⟩ := Result.bind_eq_ok.mp h
          cases h
          obtain ⟨htwo, hle, -, -⟩ := scanMember_bounds hfirst
          have hrest := ih hrest
          rw [List.length_cons]
          omega

/-- What the first pass finds lies within the memory. A length that wraps around is found too,
but never in a message in which all else is well. -/
theorem within_of_scan {slots : ℕ} {members : List (ScannedMember α)}
    (h : scan value slots rem data = .ok members) :
    ∀ member ∈ members, member.Within ∧ member.data <:+ data := by
  induction slots generalizing rem data members with
  | zero =>
      cases rem with
      | zero =>
          cases h
          simp
      | succ rem =>
          obtain ⟨_, _, h⟩ := Result.bind_eq_ok.mp h
          cases h
  | succ slots ih =>
      cases rem with
      | zero =>
          cases h
          simp
      | succ rem =>
          obtain ⟨⟨first, used⟩, hfirst, h⟩ := Result.bind_eq_ok.mp h
          obtain ⟨rest, hrest, h⟩ := Result.bind_eq_ok.mp h
          cases h
          obtain ⟨-, -, -, hsuffix⟩ := scanMember_bounds hfirst
          have hwithin : first.Within := by
            rcases scanMember_within hfirst with hwithin | ⟨hlt, hnone⟩
            · exact hwithin
            · obtain ⟨found, hfound⟩ := scan_eq_ok_pos (by omega) hrest
              exact absurd hfound (hnone _ found)
          intro member hmember
          rcases List.mem_cons.mp hmember with rfl | hmember
          · exact ⟨hwithin, hsuffix⟩
          · obtain ⟨hwithin', hsuffix'⟩ := ih hrest member hmember
            exact ⟨hwithin', hsuffix'.trans (List.drop_suffix _ _)⟩

theorem parseTagAndWiretype_ne_outOfBounds (hrem : rem ≤ data.length) :
    parseTagAndWiretype value rem data ≠ .error .outOfBounds := by
  intro h
  rcases Result.bind_eq_error.mp h with h | ⟨used, -, h⟩
  · exact scanVarint_ne_outOfBounds value (by omega) h
  · cases h

theorem scanPayload_ne_outOfBounds (wireType : ℕ) (hrem : rem ≤ data.length) :
    scanPayload value wireType rem data ≠ .error .outOfBounds := by
  unfold scanPayload
  split
  · rw [ne_eq, Result.map_eq_error]
    exact scanVarint_ne_outOfBounds value (by omega)
  · split <;> simp
  · intro h
    rcases Result.bind_eq_error.mp h with h | ⟨prefixLen, -, h⟩
    · exact scanVarint_ne_outOfBounds value (by omega) h
    · simp only at h
      split at h
      · cases h
      · cases h
  · split <;> simp
  · simp

theorem scanMember_ne_outOfBounds (hrem : rem ≤ data.length) :
    scanMember value rem data ≠ .error .outOfBounds := by
  intro h
  rcases Result.bind_eq_error.mp h with h | ⟨⟨used, tag, wireType⟩, htag, h⟩
  · exact parseTagAndWiretype_ne_outOfBounds hrem h
  · have hbounds := parseTagAndWiretype_bounds htag
    have hdrop : (data.drop used).length = data.length - used := List.length_drop
    rcases Result.bind_eq_error.mp h with h | ⟨⟨prefixLen, len⟩, hpayload, h⟩
    · exact scanPayload_ne_outOfBounds wireType (by omega) h
    · obtain ⟨-, hlen, -⟩ := scanPayload_bounds hpayload
      simp only at h
      split at h
      · omega
      · cases h

theorem scan_ne_outOfBounds (slots : ℕ) (hrem : rem ≤ data.length) :
    scan value slots rem data ≠ .error .outOfBounds := by
  induction slots generalizing rem data with
  | zero =>
      cases rem with
      | zero => simp [scan_zero]
      | succ rem =>
          intro h
          rcases Result.bind_eq_error.mp h with h | ⟨_, -, h⟩
          · exact scanMember_ne_outOfBounds hrem h
          · cases h
  | succ slots ih =>
      cases rem with
      | zero => simp [scan_zero]
      | succ rem =>
          intro h
          rcases Result.bind_eq_error.mp h with h | ⟨⟨first, used⟩, hfirst, h⟩
          · exact scanMember_ne_outOfBounds hrem h
          · obtain ⟨-, hused, -, -⟩ := scanMember_bounds hfirst
            have hlength : (data.drop used).length = data.length - used := List.length_drop
            rcases Result.bind_eq_error.mp h with h | ⟨_, -, h⟩
            · exact ih (by omega) h
            · cases h

end Bounds

section Locality

variable {value} {rem : ℕ} {data : List α} (rest : List α)

def ScannedMember.extend (member : ScannedMember α) : ScannedMember α :=
  { member with data := member.data ++ rest }

@[simp] theorem ScannedMember.tag_extend (member : ScannedMember α) :
    (member.extend rest).tag = member.tag := rfl

@[simp] theorem ScannedMember.wireType_extend (member : ScannedMember α) :
    (member.extend rest).wireType = member.wireType := rfl

@[simp] theorem ScannedMember.lengthPrefixLen_extend (member : ScannedMember α) :
    (member.extend rest).lengthPrefixLen = member.lengthPrefixLen := rfl

@[simp] theorem ScannedMember.len_extend (member : ScannedMember α) :
    (member.extend rest).len = member.len := rfl

@[simp] theorem ScannedMember.data_extend (member : ScannedMember α) :
    (member.extend rest).data = member.data ++ rest := rfl

theorem scanVarint_append {max : ℕ} (h : scanVarint value max data ≠ .error .outOfBounds) :
    scanVarint value max (data ++ rest) = scanVarint value max data := by
  induction max generalizing data with
  | zero => rfl
  | succ max ih =>
      cases data with
      | nil => simp [scanVarint] at h
      | cons b bytes =>
          rw [List.cons_append, scanVarint, scanVarint]
          split
          · rfl
          · rename_i hcontinues
            rw [scanVarint, if_neg hcontinues, ne_eq, Result.map_eq_error] at h
            rw [ih h]

theorem parseTagAndWiretype_append
    (h : parseTagAndWiretype value rem data ≠ .error .outOfBounds) :
    parseTagAndWiretype value rem (data ++ rest) = parseTagAndWiretype value rem data := by
  have hscan : scanVarint value (min rem 5) data ≠ .error .outOfBounds := by
    intro hscan
    exact h (Result.bind_eq_error.mpr (.inl hscan))
  rw [parseTagAndWiretype, parseTagAndWiretype, scanVarint_append rest hscan]
  cases hused : scanVarint value (min rem 5) data with
  | error defect => rfl
  | ok used =>
      have hbounds := scanVarint_bounds value hused
      simp only [Result.ok_bind, List.take_append_of_le_length hbounds.2.2]

theorem scanLengthPrefixedData_append
    (h : scanLengthPrefixedData value rem data ≠ .error .outOfBounds) :
    scanLengthPrefixedData value rem (data ++ rest) = scanLengthPrefixedData value rem data := by
  have hscan : scanVarint value (min rem 5) data ≠ .error .outOfBounds := by
    intro hscan
    exact h (Result.bind_eq_error.mpr (.inl hscan))
  rw [scanLengthPrefixedData, scanLengthPrefixedData, scanVarint_append rest hscan]
  cases hused : scanVarint value (min rem 5) data with
  | error defect => rfl
  | ok used =>
      have hbounds := scanVarint_bounds value hused
      simp only [Result.ok_bind, List.take_append_of_le_length hbounds.2.2]

theorem scanPayload_append {wireType : ℕ}
    (h : scanPayload value wireType rem data ≠ .error .outOfBounds) :
    scanPayload value wireType rem (data ++ rest) = scanPayload value wireType rem data := by
  unfold scanPayload at h ⊢
  split
  · simp only [ne_eq, Result.map_eq_error] at h
    rw [scanVarint_append rest h]
  · rfl
  · exact scanLengthPrefixedData_append rest h
  · rfl
  · rfl

theorem scanMember_append (h : scanMember value rem data ≠ .error .outOfBounds) :
    scanMember value rem (data ++ rest) =
      (scanMember value rem data).map fun found => (found.1.extend rest, found.2) := by
  have htag : parseTagAndWiretype value rem data ≠ .error .outOfBounds := by
    intro htag
    exact h (Result.bind_eq_error.mpr (.inl htag))
  unfold scanMember at h ⊢
  rw [parseTagAndWiretype_append rest htag]
  cases hfound : parseTagAndWiretype value rem data with
  | error defect => rfl
  | ok found =>
      obtain ⟨used, tag, wireType⟩ := found
      have hbounds := parseTagAndWiretype_bounds hfound
      rw [hfound] at h
      simp only [Result.ok_bind] at h ⊢
      have hpayload : scanPayload value wireType (rem - used) (data.drop used) ≠
          .error .outOfBounds := by
        intro hpayload
        exact h (Result.bind_eq_error.mpr (.inl hpayload))
      rw [List.drop_append_of_le_length hbounds.2.2, scanPayload_append rest hpayload]
      cases hpayload : scanPayload value wireType (rem - used) (data.drop used) with
      | error defect => rfl
      | ok payload =>
          obtain ⟨prefixLen, len⟩ := payload
          rw [hpayload] at h
          simp only [Result.ok_bind] at h ⊢
          have hwithin : ¬ (data.drop used).length < len := by
            intro hshort
            exact h (if_pos hshort)
          have hextended : ¬ (data.drop used ++ rest).length < len := by
            rw [List.length_append]
            omega
          rw [if_neg hwithin, if_neg hextended]
          rfl

theorem scan_append {slots : ℕ} (h : scan value slots rem data ≠ .error .outOfBounds) :
    scan value slots rem (data ++ rest) =
      (scan value slots rem data).map (List.map (·.extend rest)) := by
  induction slots generalizing rem data with
  | zero =>
      cases rem with
      | zero => rfl
      | succ rem =>
          rw [scan] at h
          have hmember : scanMember value (rem + 1) data ≠ .error .outOfBounds := by
            intro hmember
            exact h (Result.bind_eq_error.mpr (.inl hmember))
          rw [scan, scan, scanMember_append rest hmember]
          cases scanMember value (rem + 1) data with
          | error defect => rfl
          | ok found => rfl
  | succ slots ih =>
      cases rem with
      | zero => rfl
      | succ rem =>
          rw [scan] at h
          have hmember : scanMember value (rem + 1) data ≠ .error .outOfBounds := by
            intro hmember
            exact h (Result.bind_eq_error.mpr (.inl hmember))
          rw [scan, scan, scanMember_append rest hmember]
          cases hfound : scanMember value (rem + 1) data with
          | error defect => rfl
          | ok found =>
              obtain ⟨member, used⟩ := found
              rw [hfound] at h
              simp only [Result.ok_bind, Result.map_ok] at h ⊢
              obtain ⟨-, -, hused, -⟩ := scanMember_bounds hfound
              have hrest : scan value slots (rem + 1 - used) (data.drop used) ≠
                  .error .outOfBounds := by
                intro hrest
                exact h (Result.bind_eq_error.mpr (.inl hrest))
              rw [List.drop_append_of_le_length hused, ih hrest]
              cases scan value slots (rem + 1 - used) (data.drop used) with
              | error defect => rfl
              | ok members => rfl

theorem scanPayload_mono {wireType : ℕ} {payload : ℕ × ℕ}
    (h : scanPayload value wireType rem data = .ok payload) {rem' : ℕ} (hrem : rem ≤ rem') :
    scanPayload value wireType rem' data = .ok payload := by
  match wireType with
  | 0 =>
      obtain ⟨len, hscan, h⟩ := Result.map_eq_ok.mp h
      rw [scanPayload, scanVarint_mono value hscan (by omega)]
      exact congrArg Except.ok h
  | 1 =>
      rw [scanPayload] at h ⊢
      split at h
      · cases h
      · rw [if_neg (by omega)]
        exact h
  | 2 =>
      obtain ⟨prefixLen, hscan, h⟩ := Result.bind_eq_ok.mp h
      rw [scanPayload, scanLengthPrefixedData, scanVarint_mono value hscan (by omega),
        Result.ok_bind]
      simp only at h ⊢
      split at h
      · cases h
      · rw [if_neg (by omega)]
        exact h
  | 3 => cases h
  | 4 => cases h
  | 5 =>
      rw [scanPayload] at h ⊢
      split at h
      · cases h
      · rw [if_neg (by omega)]
        exact h
  | _ + 6 => cases h

theorem scanMember_mono {found : ScannedMember α × ℕ}
    (h : scanMember value rem data = .ok found) {rem' : ℕ} (hrem : rem ≤ rem') :
    scanMember value rem' data = .ok found := by
  obtain ⟨⟨used, tag, wireType⟩, htag, h⟩ := Result.bind_eq_ok.mp h
  obtain ⟨payload, hpayload, h⟩ := Result.bind_eq_ok.mp h
  obtain ⟨used', hscan, htag⟩ := Result.bind_eq_ok.mp htag
  cases htag
  rw [scanMember, parseTagAndWiretype, scanVarint_mono value hscan (by omega)]
  simp only [Result.ok_bind, Result.pure_eq_ok]
  rw [scanPayload_mono hpayload (by omega)]
  exact h

theorem scan_concat {slots : ℕ} {members : List (ScannedMember α)}
    (h : scan value slots data.length data = .ok members) (slots' rem : ℕ) :
    scan value (members.length + slots') (data.length + rem) (data ++ rest) =
      (scan value slots' rem rest).map (members.map (·.extend rest) ++ ·) := by
  induction slots generalizing data members with
  | zero =>
      cases data with
      | nil =>
          cases h
          simp only [List.length_nil, Nat.zero_add, List.nil_append, List.map_nil]
          cases scan value slots' rem rest <;> rfl
      | cons b bytes =>
          obtain ⟨_, _, h⟩ := Result.bind_eq_ok.mp h
          cases h
  | succ slots ih =>
      cases data with
      | nil =>
          cases h
          simp only [List.length_nil, Nat.zero_add, List.nil_append, List.map_nil]
          cases scan value slots' rem rest <;> rfl
      | cons b bytes =>
          obtain ⟨⟨first, used⟩, hfirst, h⟩ := Result.bind_eq_ok.mp h
          obtain ⟨others, hothers, h⟩ := Result.bind_eq_ok.mp h
          cases h
          generalize hdata : b :: bytes = data at hfirst hothers ⊢
          have hlength : data.length = bytes.length + 1 := by rw [← hdata, List.length_cons]
          rw [← List.length_cons (a := b), hdata] at hfirst hothers
          obtain ⟨-, -, hused, -⟩ := scanMember_bounds hfirst
          have hextended : scanMember value (data.length + rem) (data ++ rest) =
              .ok (first.extend rest, used) := by
            refine scanMember_mono ?_ (Nat.le_add_right _ _)
            rw [scanMember_append rest (by rw [hfirst]; simp), hfirst]
            rfl
          have hremaining : data.length - used = (data.drop used).length := List.length_drop.symm
          rw [hremaining] at hothers
          rw [show (first :: others).length + slots' = (others.length + slots') + 1 by
            rw [List.length_cons]; omega, show data.length + rem = bytes.length + rem + 1 by omega,
            scan, show bytes.length + rem + 1 = data.length + rem by omega, hextended]
          simp only [Result.ok_bind]
          rw [List.drop_append_of_le_length hused, show data.length + rem - used =
            (data.drop used).length + rem by omega, ih hothers]
          cases scan value slots' rem rest <;> rfl

theorem scan_slots {slots : ℕ} {members : List (ScannedMember α)}
    (h : scan value members.length data.length data = .ok members)
    (hslots : members.length ≤ slots) : scan value slots data.length data = .ok members := by
  have hconcat := scan_concat [] h (slots - members.length) 0
  rw [Nat.add_sub_cancel' hslots, Nat.add_zero, List.append_nil, scan_zero] at hconcat
  rw [hconcat, Result.map_ok, List.append_nil]
  congr 1
  refine (List.map_congr_left fun member _ => ?_).trans (List.map_id _)
  rw [ScannedMember.extend, List.append_nil]
  rfl

end Locality

section Packed

variable {byte : UInt8 → α} {value} (hvalue : ∀ x, value (byte x) = x)

include hvalue

theorem parseTagAndWiretype_uint32Pack {id wireType : ℕ} (hid : id < 2 ^ 29) (hwire : wireType < 8)
    (rest : List α) {rem : ℕ}
    (hrem : (uint32Pack byte (UInt32.ofNat (id * 8 + wireType))).length ≤ rem) :
    parseTagAndWiretype value rem (uint32Pack byte (UInt32.ofNat (id * 8 + wireType)) ++ rest) =
      .ok ((uint32Pack byte (UInt32.ofNat (id * 8 + wireType))).length, id, wireType) := by
  have hle : (uint32Pack byte (UInt32.ofNat (id * 8 + wireType))).length ≤ 5 :=
    length_digits_le byte 4 _
  have htag : (UInt32.ofNat (id * 8 + wireType)).toNat = id * 8 + wireType :=
    UInt32.toNat_ofNat_of_lt' (by change _ < 2 ^ 32; omega)
  rw [parseTagAndWiretype, scanVarint_uint32Pack hvalue _ rest (by omega), Result.ok_bind,
    digitsValue_uint32Pack hvalue, htag, Result.pure_eq_ok, Except.ok.injEq, Prod.mk.injEq,
    Prod.mk.injEq]
  omega

theorem scan_packed {id wireType prefixLen : ℕ} (hid : id < 2 ^ 29) (hwire : wireType < 8)
    {packed : List α}
    (h : scanPayload value wireType packed.length packed = .ok (prefixLen, packed.length)) :
    scan value 1 (uint32Pack byte (UInt32.ofNat (id * 8 + wireType)) ++ packed).length
        (uint32Pack byte (UInt32.ofNat (id * 8 + wireType)) ++ packed) =
      .ok [⟨id, wireType, prefixLen, packed.length, packed⟩] := by
  have hshort : (uint32Pack byte (UInt32.ofNat (id * 8 + wireType))).length ≤
      (uint32Pack byte (UInt32.ofNat (id * 8 + wireType)) ++ packed).length := by
    rw [List.length_append]
    omega
  have htag := parseTagAndWiretype_uint32Pack hvalue hid hwire packed hshort
  obtain ⟨hpos, -, -⟩ := parseTagAndWiretype_bounds htag
  generalize uint32Pack byte (UInt32.ofNat (id * 8 + wireType)) = tag at htag hpos ⊢
  have hmember : scanMember value (tag ++ packed).length (tag ++ packed) =
      .ok (⟨id, wireType, prefixLen, packed.length, packed⟩, (tag ++ packed).length) := by
    rw [scanMember, htag, Result.ok_bind]
    simp only [List.length_append, Nat.add_sub_cancel_left, List.drop_left, h, Result.ok_bind,
      lt_irrefl, if_false, Result.pure_eq_ok]
  obtain ⟨rem, hrem⟩ : ∃ rem, (tag ++ packed).length = rem + 1 :=
    ⟨(tag ++ packed).length - 1, by rw [List.length_append]; omega⟩
  rw [hrem] at hmember ⊢
  rw [scan, hmember, Result.ok_bind]
  simp only [Nat.sub_self, scan_zero, Result.ok_bind, Result.pure_eq_ok]

theorem scanPayload_prefixedPack {data : List α} (hfits : data.length + 5 < 2 ^ 32) :
    scanPayload value 2 (prefixedPack byte data).length (prefixedPack byte data) =
      .ok ((uint32Pack byte (UInt32.ofNat data.length)).length, (prefixedPack byte data).length) := by
  have hle : (uint32Pack byte (UInt32.ofNat data.length)).length ≤ 5 := length_digits_le byte 4 _
  have hpos : 0 < (uint32Pack byte (UInt32.ofNat data.length)).length :=
    length_digits_pos byte 4 _
  have hlength : (UInt32.ofNat data.length).toNat = data.length :=
    UInt32.toNat_ofNat_of_lt' (by change _ < 2 ^ 32; omega)
  have htotal : (prefixedPack byte data).length =
      (uint32Pack byte (UInt32.ofNat data.length)).length + data.length := List.length_append
  rw [scanPayload, scanLengthPrefixedData, htotal, prefixedPack,
    scanVarint_uint32Pack hvalue _ data (by omega), Result.ok_bind]
  simp only [digitsValue_uint32Pack hvalue, hlength]
  rw [Nat.mod_eq_of_lt (by omega), if_neg (by omega), Result.pure_eq_ok]

end Packed

end Scanning

end Wire
