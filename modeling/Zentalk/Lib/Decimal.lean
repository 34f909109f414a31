import Zentalk.Lib.Bytes

/-!
# Numbers and bytes as text

Both texts can be read in one way only: `decimal_inj`, `hexText_inj`, `append_cons_inj`.
-/

namespace Decimal

open Wire List UInt8 Nat

def digits : ℕ → ℕ → Bytes
  | 0, _ => []
  | fuel + 1, n =>
    if n < 10 then [UInt8.ofNat (48 + n)]
    else digits fuel (n / 10) ++ [UInt8.ofNat (48 + n % 10)]

def decimal : ℤ → Bytes
  | .ofNat n => digits (n + 1) n
  | .negSucc n => 45 :: digits (n + 2) (n + 1)

/-! ## Reading back -/

def value (b : Bytes) : ℕ := b.foldl (fun acc x => acc * 10 + (x.toNat - 48)) 0

theorem value_concat (b : Bytes) (x : UInt8) :
    value (b ++ [x]) = value b * 10 + (x.toNat - 48) := by
  simp [value]

theorem toNat_digit {d : ℕ} (h : d < 10) : (UInt8.ofNat (48 + d)).toNat = 48 + d := by
  rw [toNat_ofNat']
  omega

theorem value_digits {fuel n : ℕ} (h : n < fuel) : value (digits fuel n) = n := by
  induction fuel generalizing n with
  | zero => cases h
  | succ fuel ih =>
    rw [digits]
    split
    · next hn =>
      rw [value, foldl_cons, foldl_nil, toNat_digit hn]
      omega
    · rw [value_concat, ih (by omega), toNat_digit (mod_lt n (by norm_num))]
      omega

theorem mem_digits {fuel n : ℕ} {x : UInt8} (h : x ∈ digits fuel n) :
    48 ≤ x.toNat ∧ x.toNat ≤ 57 := by
  have hdigit {d : ℕ} (hd : d < 10) (hx : x = ofNat (48 + d)) : 48 ≤ x.toNat ∧ x.toNat ≤ 57 := by
    rw [hx, toNat_digit hd]
    omega
  induction fuel generalizing n with
  | zero => cases h
  | succ fuel ih =>
    rw [digits] at h
    split at h
    · next hn => exact hdigit hn (mem_singleton.mp h)
    · rcases mem_append.mp h with h | h
      · exact ih h
      · exact hdigit (mod_lt n (by norm_num)) (mem_singleton.mp h)

theorem mem_decimal {z : ℤ} {x : UInt8} (h : x ∈ decimal z) :
    x.toNat = 45 ∨ 48 ≤ x.toNat ∧ x.toNat ≤ 57 := by
  cases z with
  | ofNat n => exact .inr (mem_digits h)
  | negSucc n =>
    rcases mem_cons.mp h with rfl | h
    · exact .inl rfl
    · exact .inr (mem_digits h)

/-- Two integers with one text are the same. -/
theorem decimal_inj {a b : ℤ} (h : decimal a = decimal b) : a = b := by
  -- the sign is not a digit
  have hsign n fuel (b : Bytes) (h : digits fuel n = 45 :: b) : False := by
    have hmem : (45 : UInt8) ∈ digits fuel n := h ▸ mem_cons_self
    exact absurd (mem_digits hmem).1 (by decide)
  cases a with
  | ofNat m =>
    cases b with
    | ofNat n =>
      have hvalue := congrArg value h
      rw [decimal, decimal, value_digits m.lt_succ_self, value_digits n.lt_succ_self] at hvalue
      rw [hvalue]
    | negSucc n => exact (hsign m _ _ h).elim
  | negSucc m =>
    cases b with
    | ofNat n => exact (hsign n _ _ h.symm).elim
    | negSucc n =>
      have hvalue := congrArg value (List.cons.inj h).2
      rw [value_digits (lt_succ_self _), value_digits (lt_succ_self _)] at hvalue
      rw [succ.inj hvalue]

/-! ## Separators -/

/-- The last separator of a string cuts it in one way only. -/
theorem append_cons_inj {α : Type*} {x : α} {a a' b b' : List α} (hb : x ∉ b) (hb' : x ∉ b')
    (h : a ++ x :: b = a' ++ x :: b') : a = a' ∧ b = b' := by
  -- if one cut comes before the other, the rest after it holds a separator
  have hcut {b b' c : List α} (hb : x ∉ b) (h : x :: b = c ++ x :: b') : c = [] := by
    cases c with
    | nil => rfl
    | cons y c =>
      obtain ⟨-, rfl⟩ := List.cons.inj h
      exact absurd (mem_append_right c mem_cons_self) hb
  rcases append_eq_append_iff.mp h with ⟨c, rfl, hc⟩ | ⟨c, rfl, hc⟩
  · obtain rfl := hcut hb hc
    exact ⟨(append_nil a).symm, (List.cons.inj hc).2⟩
  · obtain rfl := hcut hb' hc
    exact ⟨append_nil a', (List.cons.inj hc).2.symm⟩

/-! ## Hexadecimal text -/

def hexByte (x : UInt8) : Bytes :=
  let digit (d : ℕ) : UInt8 := UInt8.ofNat (if d < 10 then 48 + d else 87 + d)
  [digit (x.toNat / 16), digit (x.toNat % 16)]

/-- `hex.EncodeToString`. -/
def hexText (b : Bytes) : Bytes := b.flatMap hexByte

def ofHex : Bytes → UInt8
  | [d, d'] => value d * 16 + value d'
  | _ => 0
where
  value (d : UInt8) : UInt8 := if d < 58 then d - 48 else d - 87

theorem ofHex_hexByte (x : UInt8) : ofHex (hexByte x) = x := by
  have hall : ∀ n : Fin 256, ofHex (hexByte (ofNat n)) = ofNat n := by decide +kernel
  simpa using hall ⟨x.toNat, x.toNat_lt⟩

theorem hexByte_inj {x y : UInt8} (h : hexByte x = hexByte y) : x = y := by
  rw [← ofHex_hexByte x, h, ofHex_hexByte]

theorem length_hexText (b : Bytes) : (hexText b).length = 2 * b.length := by
  induction b with
  | nil => rfl
  | cons x b ih =>
    have hcons : hexText (x :: b) = hexByte x ++ hexText b := rfl
    rw [hcons, length_append, ih, length_cons, mul_add_one, add_comm]
    rfl

theorem hexText_inj {b b' : Bytes} (h : hexText b = hexText b') : b = b' := by
  induction b generalizing b' with
  | nil =>
    cases b' with
    | nil => rfl
    | cons y b' => cases h
  | cons x b ih =>
    cases b' with
    | nil => cases h
    | cons y b' =>
      have h : hexByte x ++ hexText b = hexByte y ++ hexText b' := h
      obtain ⟨hx, hb⟩ := append_inj h rfl
      rw [hexByte_inj hx, ih hb]

end Decimal
