import Kojacoord.Lib.Keystream

namespace Feedback
open Keystream

variable {σ β : Type}

structure Mask (β : Type) where
  apply : β → β → β
  apply_apply : ∀ x k, apply (apply x k) k = x
  injective : ∀ x, Function.Injective (apply x)

variable {m : Mask β} {ks ks' : List β → β}

def encrypt (m : Mask β) (ks : List β → β) : List β → List β → List β
  | _, [] => []
  | past, x :: xs => m.apply x (ks past) :: encrypt m ks (past ++ [m.apply x (ks past)]) xs

def decrypt (m : Mask β) (ks : List β → β) : List β → List β → List β
  | _, [] => []
  | past, c :: cs => m.apply c (ks past) :: decrypt m ks (past ++ [c]) cs

theorem decrypt_encrypt (past xs : List β) :
    decrypt m ks past (encrypt m ks past xs) = xs := by
  induction xs generalizing past with
  | nil => rfl
  | cons x xs ih => rw [encrypt, decrypt, m.apply_apply, ih]

theorem encrypt_eq_iff (past xs : List β) :
    encrypt m ks past xs = encrypt m ks' past xs ↔
      ∀ i < xs.length, ks (past ++ (encrypt m ks past xs).take i) =
        ks' (past ++ (encrypt m ks past xs).take i) := by
  induction xs generalizing past with
  | nil => simp [encrypt]
  | cons x xs ih =>
    constructor
    · intro h i hi
      obtain ⟨hhd, htl⟩ := List.cons.inj h
      cases i with
      | zero => simpa using m.injective x hhd
      | succ i =>
        rw [← hhd] at htl
        have hnx := (ih (past ++ [m.apply x (ks past)])).mp htl i (Nat.lt_of_succ_lt_succ hi)
        simpa [encrypt] using hnx
    · intro h
      have hhd : ks past = ks' past := by simpa using h 0 (Nat.succ_pos _)
      rw [encrypt, encrypt, ← hhd]
      congr 1
      apply (ih _).mpr
      intro i hi
      simpa [encrypt] using h (i + 1) (Nat.succ_lt_succ hi)

/-- A machine that has the cipher's key stream for its state and follows the ciphertext. -/
structure Encrypts (m : Mask β) (ks : List β → β) (step : σ → β → σ × β)
    (holds : List β → σ → Prop) : Prop where
  output : ∀ past s x, holds past s → (step s x).2 = m.apply x (ks past)
  next : ∀ past s x, holds past s → holds (past ++ [(step s x).2]) (step s x).1

structure Decrypts (m : Mask β) (ks : List β → β) (step : σ → β → σ × β)
    (holds : List β → σ → Prop) : Prop where
  output : ∀ past s c, holds past s → (step s c).2 = m.apply c (ks past)
  next : ∀ past s c, holds past s → holds (past ++ [c]) (step s c).1

variable {step : σ → β → σ × β} {holds : List β → σ → Prop} {s : σ}

theorem Encrypts.run (h : Encrypts m ks step holds) (hs : holds past s) (xs : List β) :
    ((Transducer.symbolwise step).run s xs).2 = encrypt m ks past xs := by
  change (Transducer.steps step s xs).2 = _
  induction xs generalizing past s with
  | nil => rfl
  | cons x xs ih =>
    have hout := h.output past s x hs
    rw [Transducer.steps, encrypt, ih (h.next past s x hs), hout]

theorem Decrypts.run (h : Decrypts m ks step holds) (hs : holds past s) (cs : List β) :
    ((Transducer.symbolwise step).run s cs).2 = decrypt m ks past cs := by
  change (Transducer.steps step s cs).2 = _
  induction cs generalizing past s with
  | nil => rfl
  | cons c cs ih => rw [Transducer.steps, decrypt, ih (h.next past s c hs), h.output past s c hs]

theorem Decrypts.undoes {step' : τ → β → τ × β} {holds' : List β → τ → Prop} {t : τ}
    (hd : Decrypts m ks step' holds') (he : Encrypts m ks step holds) (hs : holds [] s)
    (ht : holds' [] t) :
    (Transducer.symbolwise step').Undoes t (.symbolwise step) s := by
  intro xs
  rw [he.run hs, hd.run ht, decrypt_encrypt]

end Feedback
