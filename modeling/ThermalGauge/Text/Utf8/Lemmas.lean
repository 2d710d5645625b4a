import ThermalGauge.Text.Utf8

/-!
# Laws of UTF-8

Strict decoding accepts exactly what encoding produces.  One half follows a character through
the machine; the other half follows the machine through the octets of a character.
-/

namespace ThermalGauge

namespace Utf8

@[simp] theorem pieces_nil : pieces [] = [] := rfl

@[simp] theorem scan_none_nil : scan none [] = [] := rfl

@[simp] theorem scan_some_nil (p : Begun) : scan (some p) [] = [.stray p.seen.reverse] := rfl

theorem scan_cons (begun : Option Begun) (b : UInt8) (rest : Octets) :
    scan begun (b :: rest) = (step begun b).1 ++ scan (step begun b).2 rest := rfl

theorem toNat_ofNat_octet {n : Nat} (h : n < 256) : (UInt8.ofNat n).toNat = n := by
  simp [Nat.mod_eq_of_lt h]

theorem toNat_valid (c : Char) :
    c.toNat < 0xD800 ∨ (0xDFFF < c.toNat ∧ c.toNat < 0x110000) := c.valid

theorem toNat_ofNat_char {n : Nat} (h : n < 0xD800 ∨ (0xDFFF < n ∧ n < 0x110000)) :
    (Char.ofNat n).toNat = n := by
  have hv : n.isValidChar := h
  rw [Char.ofNat, dif_pos hv]
  rfl

/-! ## From characters to octets -/

theorem step_some_last {p : Begun} {n : Nat} (h : n < 256) (howed : p.owed = 0)
    (hlow : p.low ≤ n) (hhigh : n ≤ p.high) :
    step (some p) (.ofNat n) = ([.char (.ofNat (p.bits * 64 + (n - 0x80)))], none) := by
  simp only [step, toNat_ofNat_octet h, hlow, hhigh, and_self, if_true, howed]

theorem step_some_more {p : Begun} {n k : Nat} (h : n < 256) (howed : p.owed = k + 1)
    (hlow : p.low ≤ n) (hhigh : n ≤ p.high) :
    step (some p) (.ofNat n) =
      ([], some ⟨.ofNat n :: p.seen, p.bits * 64 + (n - 0x80), k, 0x80, 0xBF⟩) := by
  simp only [step, toNat_ofNat_octet h, hlow, hhigh, and_self, if_true, howed]

/-- The machine reads the octets of a character as that character. -/
theorem scan_encodeChar_append (c : Char) (rest : Octets) :
    scan none (encodeChar c ++ rest) = .char c :: scan none rest := by
  have hv := toNat_valid c
  have hc := Char.ofNat_toNat c
  unfold encodeChar
  generalize c.toNat = n at hv hc
  dsimp only
  split
  · next h =>
    have hs : start (.ofNat n) = ([.char (.ofNat n)], none) := by
      simp only [start, toNat_ofNat_octet (show n < 256 by omega), h, if_true]
    simp [scan_cons, step, hs, hc]
  split
  · next h₁ h₂ =>
    have hs : start (.ofNat (0xC0 + n / 64)) =
        ([], some ⟨[.ofNat (0xC0 + n / 64)], n / 64, 0, 0x80, 0xBF⟩) := by
      simp only [start, toNat_ofNat_octet (show 0xC0 + n / 64 < 256 by omega)]
      rw [if_neg (by omega), if_neg (by omega), if_pos (by omega)]
      simp
    have hl := step_some_last (p := ⟨[.ofNat (0xC0 + n / 64)], n / 64, 0, 0x80, 0xBF⟩)
      (n := 0x80 + n % 64) (by omega) rfl (by simp) (by simp only; omega)
    have hb : n / 64 * 64 + (0x80 + n % 64 - 0x80) = n := by omega
    simp only [List.cons_append, List.nil_append, scan_cons]
    rw [show step none (.ofNat (0xC0 + n / 64)) = _ from hs]
    simp only [hl, hb, hc, List.nil_append, List.cons_append]
  split
  · next h₁ h₂ h₃ =>
    have hs : start (.ofNat (0xE0 + n / 4096)) =
        ([], some ⟨[.ofNat (0xE0 + n / 4096)], n / 4096, 1,
          if 0xE0 + n / 4096 = 0xE0 then 0xA0 else 0x80,
          if 0xE0 + n / 4096 = 0xED then 0x9F else 0xBF⟩) := by
      simp only [start, toNat_ofNat_octet (show 0xE0 + n / 4096 < 256 by omega)]
      rw [if_neg (by omega), if_neg (by omega), if_neg (by omega), if_pos (by omega)]
      simp
    have hm := step_some_more
      (p := ⟨[.ofNat (0xE0 + n / 4096)], n / 4096, 1,
          if 0xE0 + n / 4096 = 0xE0 then 0xA0 else 0x80,
          if 0xE0 + n / 4096 = 0xED then 0x9F else 0xBF⟩)
      (n := 0x80 + n / 64 % 64) (k := 0) (by omega) rfl
      (by simp only; split <;> omega) (by simp only; split <;> omega)
    have hl := step_some_last
      (p := ⟨[.ofNat (0x80 + n / 64 % 64), .ofNat (0xE0 + n / 4096)],
        n / 4096 * 64 + (0x80 + n / 64 % 64 - 0x80), 0, 0x80, 0xBF⟩)
      (n := 0x80 + n % 64) (by omega) rfl (by simp) (by simp only; omega)
    have hb : (n / 4096 * 64 + (0x80 + n / 64 % 64 - 0x80)) * 64 + (0x80 + n % 64 - 0x80) = n := by
      omega
    simp only [List.cons_append, List.nil_append, scan_cons]
    rw [show step none (.ofNat (0xE0 + n / 4096)) = _ from hs]
    simp only [hm, hl, hb, hc, List.nil_append, List.cons_append]
  · next h₁ h₂ h₃ =>
    have hs : start (.ofNat (0xF0 + n / 262144)) =
        ([], some ⟨[.ofNat (0xF0 + n / 262144)], n / 262144, 2,
          if 0xF0 + n / 262144 = 0xF0 then 0x90 else 0x80,
          if 0xF0 + n / 262144 = 0xF4 then 0x8F else 0xBF⟩) := by
      simp only [start, toNat_ofNat_octet (show 0xF0 + n / 262144 < 256 by omega)]
      rw [if_neg (by omega), if_neg (by omega), if_neg (by omega), if_neg (by omega),
        if_pos (by omega)]
      simp
    have hm := step_some_more
      (p := ⟨[.ofNat (0xF0 + n / 262144)], n / 262144, 2,
          if 0xF0 + n / 262144 = 0xF0 then 0x90 else 0x80,
          if 0xF0 + n / 262144 = 0xF4 then 0x8F else 0xBF⟩)
      (n := 0x80 + n / 4096 % 64) (k := 1) (by omega) rfl
      (by simp only; split <;> omega) (by simp only; split <;> omega)
    have hm' := step_some_more
      (p := ⟨[.ofNat (0x80 + n / 4096 % 64), .ofNat (0xF0 + n / 262144)],
        n / 262144 * 64 + (0x80 + n / 4096 % 64 - 0x80), 1, 0x80, 0xBF⟩)
      (n := 0x80 + n / 64 % 64) (k := 0) (by omega) rfl (by simp) (by simp only; omega)
    have hl := step_some_last
      (p := ⟨[.ofNat (0x80 + n / 64 % 64), .ofNat (0x80 + n / 4096 % 64),
          .ofNat (0xF0 + n / 262144)],
        (n / 262144 * 64 + (0x80 + n / 4096 % 64 - 0x80)) * 64 + (0x80 + n / 64 % 64 - 0x80),
        0, 0x80, 0xBF⟩)
      (n := 0x80 + n % 64) (by omega) rfl (by simp) (by simp only; omega)
    have hb : ((n / 262144 * 64 + (0x80 + n / 4096 % 64 - 0x80)) * 64 +
        (0x80 + n / 64 % 64 - 0x80)) * 64 + (0x80 + n % 64 - 0x80) = n := by omega
    simp only [List.cons_append, List.nil_append, scan_cons]
    rw [show step none (.ofNat (0xF0 + n / 262144)) = _ from hs]
    simp only [hm, hm', hl, hb, hc, List.nil_append, List.cons_append]

theorem pieces_flatMap_encodeChar (cs : List Char) :
    pieces (cs.flatMap encodeChar) = cs.map .char := by
  induction cs with
  | nil => rfl
  | cons c cs ih =>
    rw [List.flatMap_cons, pieces, scan_encodeChar_append, ← pieces, ih, List.map_cons]

@[simp] theorem chars?_map_char (cs : List Char) : chars? (cs.map .char) = some cs := by
  induction cs with
  | nil => rfl
  | cons c cs ih =>
    simp only [chars?, List.map_cons, List.mapM_cons] at ih ⊢
    simp [ih, Piece.char?]

theorem decode?_encode (s : String) : decode? (encode s) = some s := by
  simp [decode?, encode, pieces_flatMap_encodeChar]

theorem encode_inj {s t : String} : encode s = encode t ↔ s = t := by
  constructor
  · intro h
    have hdecode := congrArg decode? h
    rwa [decode?_encode, decode?_encode, Option.some.injEq] at hdecode
  · rintro rfl
    rfl

theorem encode_eq_nil_iff {s : String} : encode s = [] ↔ s = "" := encode_inj (t := "")

theorem decodeLossy_encode (s : String) : decodeLossy (encode s) = s := by
  rw [decodeLossy, encode, pieces_flatMap_encodeChar, List.map_map]
  simp [Function.comp_def, Piece.char?]

/-! ## From octets to characters -/

@[simp] theorem chars?_nil : chars? [] = some [] := rfl

@[simp] theorem chars?_stray (o : Octets) (ps : List Piece) : chars? (.stray o :: ps) = none := by
  simp [chars?, Piece.char?]

theorem chars?_char {c : Char} {ps : List Piece} {cs : List Char}
    (h : chars? (.char c :: ps) = some cs) : ∃ rest, chars? ps = some rest ∧ cs = c :: rest := by
  simp only [chars?, List.mapM_cons, Piece.char?] at h ⊢
  obtain ⟨d, hd, h⟩ := Option.bind_eq_some_iff.1 h
  obtain ⟨rest, hr, h⟩ := Option.bind_eq_some_iff.1 h
  cases hd
  exact ⟨rest, hr, (Option.some.inj h).symm⟩

/-- A begun character of which only the next octet is owed is finished by an octet in its
range, and by nothing else. -/
theorem finish_of_chars? {p : Begun} {o : Octets} {cs : List Char} (howed : p.owed = 0)
    (h : chars? (scan (some p) o) = some cs) :
    ∃ b rest ds, o = b :: rest ∧ p.low ≤ b.toNat ∧ b.toNat ≤ p.high ∧
      cs = .ofNat (p.bits * 64 + (b.toNat - 0x80)) :: ds ∧ chars? (scan none rest) = some ds := by
  cases o with
  | nil => simp at h
  | cons b rest =>
    rw [scan_cons] at h
    simp only [step, howed] at h
    split at h
    · next hr =>
      obtain ⟨ds, hd, rfl⟩ := chars?_char h
      exact ⟨b, rest, ds, rfl, hr.1, hr.2, rfl, hd⟩
    · simp at h

theorem advance_of_chars? {p : Begun} {k : Nat} {o : Octets} {cs : List Char}
    (howed : p.owed = k + 1) (h : chars? (scan (some p) o) = some cs) :
    ∃ b rest, o = b :: rest ∧ p.low ≤ b.toNat ∧ b.toNat ≤ p.high ∧
      chars? (scan (some ⟨b :: p.seen, p.bits * 64 + (b.toNat - 0x80), k, 0x80, 0xBF⟩) rest) =
        some cs := by
  cases o with
  | nil => simp at h
  | cons b rest =>
    rw [scan_cons] at h
    simp only [step, howed] at h
    split at h
    · next hr => exact ⟨b, rest, rfl, hr.1, hr.2, h⟩
    · simp at h

theorem eq_ofNat_of_toNat {b : UInt8} {n : Nat} (h : b.toNat = n) : b = .ofNat n := by
  rw [← h, UInt8.ofNat_toNat]

theorem encodeChar_one {b : UInt8} (h : b.toNat < 0x80) : encodeChar (.ofNat b.toNat) = [b] := by
  rw [encodeChar, toNat_ofNat_char (by omega)]
  simp [h]

theorem encodeChar_two {a b : UInt8} (ha : 0xC2 ≤ a.toNat) (ha' : a.toNat < 0xE0)
    (hb : 0x80 ≤ b.toNat) (hb' : b.toNat ≤ 0xBF) :
    encodeChar (.ofNat ((a.toNat - 0xC0) * 64 + (b.toNat - 0x80))) = [a, b] := by
  rw [encodeChar, toNat_ofNat_char (by omega)]
  rw [if_neg (by omega), if_pos (by omega), ← eq_ofNat_of_toNat (b := a) (by omega),
    ← eq_ofNat_of_toNat (b := b) (by omega)]

theorem encodeChar_three {a b c : UInt8} (ha : 0xE0 ≤ a.toNat) (ha' : a.toNat < 0xF0)
    (hb : (if a.toNat = 0xE0 then 0xA0 else 0x80) ≤ b.toNat)
    (hb' : b.toNat ≤ if a.toNat = 0xED then 0x9F else 0xBF)
    (hc : 0x80 ≤ c.toNat) (hc' : c.toNat ≤ 0xBF) :
    encodeChar (.ofNat (((a.toNat - 0xE0) * 64 + (b.toNat - 0x80)) * 64 + (c.toNat - 0x80))) =
      [a, b, c] := by
  rw [encodeChar, toNat_ofNat_char (by split at hb <;> split at hb' <;> omega)]
  rw [if_neg (by split at hb <;> omega), if_neg (by split at hb <;> omega),
    if_pos (by split at hb' <;> omega),
    ← eq_ofNat_of_toNat (b := a) (by split at hb <;> split at hb' <;> omega),
    ← eq_ofNat_of_toNat (b := b) (by split at hb <;> split at hb' <;> omega),
    ← eq_ofNat_of_toNat (b := c) (by split at hb <;> split at hb' <;> omega)]

theorem encodeChar_four {a b c d : UInt8} (ha : 0xF0 ≤ a.toNat) (ha' : a.toNat < 0xF5)
    (hb : (if a.toNat = 0xF0 then 0x90 else 0x80) ≤ b.toNat)
    (hb' : b.toNat ≤ if a.toNat = 0xF4 then 0x8F else 0xBF)
    (hc : 0x80 ≤ c.toNat) (hc' : c.toNat ≤ 0xBF) (hd : 0x80 ≤ d.toNat) (hd' : d.toNat ≤ 0xBF) :
    encodeChar (.ofNat ((((a.toNat - 0xF0) * 64 + (b.toNat - 0x80)) * 64 +
      (c.toNat - 0x80)) * 64 + (d.toNat - 0x80))) = [a, b, c, d] := by
  have hlow : 0x80 ≤ b.toNat := by split at hb <;> omega
  have hhigh : b.toNat ≤ 0xBF := by split at hb' <;> omega
  have hleast : 0x10000 ≤ (((a.toNat - 0xF0) * 64 + (b.toNat - 0x80)) * 64 +
      (c.toNat - 0x80)) * 64 + (d.toNat - 0x80) := by split at hb <;> omega
  have hmost : (((a.toNat - 0xF0) * 64 + (b.toNat - 0x80)) * 64 +
      (c.toNat - 0x80)) * 64 + (d.toNat - 0x80) < 0x110000 := by split at hb' <;> omega
  rw [encodeChar, toNat_ofNat_char (by omega)]
  rw [if_neg (by omega), if_neg (by omega), if_neg (by omega),
    ← eq_ofNat_of_toNat (b := a) (by omega), ← eq_ofNat_of_toNat (b := b) (by omega),
    ← eq_ofNat_of_toNat (b := c) (by omega), ← eq_ofNat_of_toNat (b := d) (by omega)]

theorem eq_flatMap_of_chars?_of_length_le {n : Nat} {o : Octets} {cs : List Char}
    (hn : o.length ≤ n) (h : chars? (scan none o) = some cs) : o = cs.flatMap encodeChar := by
  induction n generalizing o cs with
  | zero =>
    obtain rfl : o = [] := List.length_eq_zero_iff.1 (Nat.le_zero.1 hn)
    cases Option.some.inj h
    rfl
  | succ n ih =>
    cases o with
    | nil =>
      cases Option.some.inj h
      rfl
    | cons a rest =>
      rw [scan_cons, show step none a = start a from rfl] at h
      simp only [start] at h
      split at h
      · next h₁ =>
        obtain ⟨ds, hd, rfl⟩ := chars?_char h
        rw [List.flatMap_cons, encodeChar_one h₁, ← ih (by simp at hn; omega) hd]
        rfl
      split at h
      · simp at h
      split at h
      · next h₁ h₂ h₃ =>
        obtain ⟨b, rest, ds, rfl, hb, hb', rfl, hd⟩ := finish_of_chars? rfl h
        rw [List.flatMap_cons, encodeChar_two (by omega) h₃ hb hb',
          ← ih (by simp at hn; omega) hd]
        rfl
      split at h
      · next h₁ h₂ h₃ h₄ =>
        obtain ⟨b, rest, rfl, hb, hb', h⟩ := advance_of_chars? rfl h
        obtain ⟨c, rest, ds, rfl, hc, hc', rfl, hd⟩ := finish_of_chars? rfl h
        rw [List.flatMap_cons, encodeChar_three (by omega) h₄ hb hb' hc hc',
          ← ih (by simp at hn; omega) hd]
        rfl
      split at h
      · next h₁ h₂ h₃ h₄ h₅ =>
        obtain ⟨b, rest, rfl, hb, hb', h⟩ := advance_of_chars? rfl h
        obtain ⟨c, rest, rfl, hc, hc', h⟩ := advance_of_chars? rfl h
        obtain ⟨d, rest, ds, rfl, hd, hd', rfl, hds⟩ := finish_of_chars? rfl h
        rw [List.flatMap_cons, encodeChar_four (by omega) h₅ hb hb' hc hc' hd hd',
          ← ih (by simp at hn; omega) hds]
        rfl
      · simp at h

/-- Strict decoding accepts exactly what encoding produces. -/
theorem decode?_eq_some_iff {o : Octets} {s : String} : decode? o = some s ↔ o = encode s := by
  constructor
  · intro h
    obtain ⟨cs, hcs, rfl⟩ := Option.map_eq_some_iff.1 h
    rw [encode, String.toList_ofList]
    exact eq_flatMap_of_chars?_of_length_le (Nat.le_refl _) hcs
  · rintro rfl
    exact decode?_encode s

/-! ## The first character -/

theorem start_cases (b : UInt8) :
    (∃ c, start b = ([.char c], none)) ∨ (∃ p, start b = ([], some p)) ∨
      ∃ o, start b = ([.stray o], none) := by
  unfold start
  dsimp only
  repeat' split
  all_goals simp

theorem step_cases (begun : Option Begun) (b : UInt8) :
    (∃ c, step begun b = ([.char c], none)) ∨ (∃ p, step begun b = ([], some p)) ∨
      ∃ o ps begun', step begun b = (.stray o :: ps, begun') := by
  cases begun with
  | none =>
    rcases start_cases b with h | h | ⟨o, h⟩
    · exact .inl h
    · exact .inr (.inl h)
    · exact .inr (.inr ⟨o, [], none, h⟩)
  | some p =>
    simp only [step]
    split
    · split
      · exact .inl ⟨_, rfl⟩
      · exact .inr (.inl ⟨_, rfl⟩)
    · exact .inr (.inr ⟨_, _, _, rfl⟩)

/-- Behind a character the machine has begun no other. -/
theorem exists_append_of_scan {begun : Option Begun} {o : Octets} {c : Char} {ps : List Piece}
    (h : scan begun o = .char c :: ps) :
    ∃ front rest, o = front ++ rest ∧ scan begun front = [.char c] ∧ scan none rest = ps := by
  induction o generalizing begun with
  | nil => cases begun <;> cases h
  | cons b o ih =>
    rw [scan_cons] at h
    rcases step_cases begun b with ⟨c', hstep⟩ | ⟨p, hstep⟩ | ⟨_, _, _, hstep⟩
    · rw [hstep] at h
      obtain ⟨rfl, hrest⟩ : c' = c ∧ scan none o = ps := by simpa using h
      exact ⟨[b], o, rfl, by rw [scan_cons, hstep]; rfl, hrest⟩
    · rw [hstep] at h
      obtain ⟨front, rest, rfl, hfront, hrest⟩ := ih h
      exact ⟨b :: front, rest, rfl, by rw [scan_cons, hstep]; exact hfront, hrest⟩
    · rw [hstep] at h
      cases h

theorem pieces_eq_char_cons_iff {o : Octets} {c : Char} {ps : List Piece} :
    pieces o = .char c :: ps ↔ ∃ rest, o = encodeChar c ++ rest ∧ pieces rest = ps := by
  constructor
  · intro h
    obtain ⟨front, rest, rfl, hfront, hrest⟩ := exists_append_of_scan h
    have hchars : chars? (scan none front) = some [c] := by
      rw [hfront]
      exact chars?_map_char [c]
    have hencoded := eq_flatMap_of_chars?_of_length_le (Nat.le_refl _) hchars
    rw [List.flatMap_cons, List.flatMap_nil, List.append_nil] at hencoded
    exact ⟨rest, by rw [hencoded], hrest⟩
  · rintro ⟨rest, rfl, rfl⟩
    exact scan_encodeChar_append c rest

end Utf8

end ThermalGauge
