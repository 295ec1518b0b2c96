import QorechainPqc.Lib.BigEndian

/-!
# Self-delimiting encodings

An encoding is self-delimiting on `P` when, whatever follows, its end can be found: equal concatenations of two
encodings with two rests have equal values and equal rests. Such encodings are prefix-free (`SelfDelimiting.prefix_eq`),
stay so behind a constant (`SelfDelimiting.behind`) and compose one after the other (`SelfDelimiting.pair`). A field
that carries its own big-endian length is the basic instance (`field_selfDelimiting`).
-/

namespace Framing

variable {α β γ : Type}

/-- The encoding `f` says where it ends, for values in `P`. -/
def SelfDelimiting (P : α → Prop) (f : α → List γ) : Prop :=
  ∀ {a b : α} {x y : List γ}, P a → P b → f a ++ x = f b ++ y → a = b ∧ x = y

namespace SelfDelimiting

variable {P : α → Prop} {Q : β → Prop} {f : α → List γ} {g : β → List γ}

/-- Prefix-free: an encoding that is a prefix of another is the encoding of the same value. -/
theorem prefix_eq (hf : SelfDelimiting P f) {a b : α} (ha : P a) (hb : P b) (h : f a <+: f b) : a = b := by
  obtain ⟨x, hx⟩ := h
  exact (hf ha hb (y := []) (by rw [hx, List.append_nil])).1

theorem inj (hf : SelfDelimiting P f) {a b : α} (ha : P a) (hb : P b) (h : f a = f b) : a = b :=
  hf.prefix_eq ha hb (h ▸ List.prefix_refl _)

/-- A constant in front changes nothing. -/
theorem behind (hf : SelfDelimiting P f) (t : List γ) : SelfDelimiting P (fun a => t ++ f a) := by
  intro a b x y ha hb h
  simp only [List.append_assoc, List.append_cancel_left_eq] at h
  exact hf ha hb h

/-- One encoding after the other. -/
theorem pair (hf : SelfDelimiting P f) (hg : SelfDelimiting Q g) :
    SelfDelimiting (fun p : α × β => P p.1 ∧ Q p.2) (fun p => f p.1 ++ g p.2) := by
  intro p q x y hp hq h
  simp only [List.append_assoc] at h
  obtain ⟨h₁, h⟩ := hf hp.1 hq.1 h
  obtain ⟨h₂, hxy⟩ := hg hp.2 hq.2 h
  exact ⟨Prod.ext h₁ h₂, hxy⟩

end SelfDelimiting

/-! ## Fields with their length in front -/

/-- The field `xs` behind its length in `w` big-endian bytes. -/
def field (w : Nat) (xs : List UInt8) : List UInt8 := beBytes w xs.length ++ xs

@[simp] theorem length_field (w : Nat) (xs : List UInt8) : (field w xs).length = w + xs.length := by
  simp [field]

/-- Fields short enough for their length bytes are self-delimiting. -/
theorem field_selfDelimiting (w : Nat) :
    SelfDelimiting (fun xs : List UInt8 => xs.length < 256 ^ w) (field w) := by
  intro a b x y ha hb h
  simp only [field, List.append_assoc] at h
  obtain ⟨hl, h⟩ := List.append_inj h (by simp)
  exact List.append_inj h (beBytes_inj ha hb hl)

end Framing
