import Kojacoord.Security.Encryption

namespace Kojacoord
open Runs List

structure EncryptCall where
  plaintext : List UInt8
  drawn : Except String (List UInt8 × UInt64)
  output : Option (Except String (List UInt8))

def EncryptCall.nonce (call : EncryptCall) : Option (List UInt8) := call.drawn.toOption.map (·.1)

structure KeyUse where
  key : EncryptionKey
  calls : List EncryptCall
  decrypted : List (List UInt8 × Except String (List UInt8))

namespace KeyUse

inductive Label where
  | draw (plaintext : List UInt8)
  | finish (i : Nat)
  | decrypt (ciphertext : List UInt8)

def start (key : EncryptionKey) : KeyUse := ⟨key, [], []⟩

def step (c : Cipher) (s : KeyUse) : Label → Option KeyUse
  | .draw plaintext =>
    some { s with
      key := (c.draw s.key).2
      calls := s.calls ++ [⟨plaintext, (c.draw s.key).1, none⟩] }
  | .finish i =>
    match s.calls[i]? with
    | none => none
    | some call =>
      if call.output.isSome then none
      else
        let output := call.drawn.bind (c.encryptUnder s.key call.plaintext)
        some { s with calls := s.calls.set i { call with output := some output } }
  | .decrypt ciphertext =>
    some { s with decrypted := s.decrypted ++ [(ciphertext, c.decrypt ciphertext s.key)] }

def counterAt (key : EncryptionKey) (i : Nat) : UInt64 := key.counter + .ofNat i

structure Ordered (c : Cipher) (key : EncryptionKey) (base : List UInt8) (s : KeyUse) : Prop where
  sameKey : s.key = { key with counter := counterAt key s.calls.length }
  drawn : ∀ (i : Nat) call, s.calls[i]? = some call →
    call.drawn = .ok (xorNonceWithCounter base (counterAt key i), counterAt key i)
  output : ∀ call ∈ s.calls, ∀ r, call.output = some r →
    r = call.drawn.bind (c.encryptUnder key call.plaintext)
  decrypted : ∀ e ∈ s.decrypted, e.2 = c.decrypt e.1 key

variable {c : Cipher} {key : EncryptionKey} {s : KeyUse}

namespace Ordered

theorem start : Ordered c key base (.start key) where
  sameKey := by
    show key = { key with counter := counterAt key 0 }
    simp [counterAt]
  drawn i call h := by cases h
  output call h := by cases h
  decrypted e h := by cases h

theorem draw (hft : c.Fits key base) (h : Ordered c key base s) :
    Ordered c key base { s with
      key := (c.draw s.key).2
      calls := s.calls ++ [⟨plaintext, (c.draw s.key).1, none⟩] } := by
  have hdraw : c.draw s.key =
      (.ok (xorNonceWithCounter base (counterAt key s.calls.length), counterAt key s.calls.length),
        { key with counter := counterAt key s.calls.length + 1 }) := by
    rw [h.sameKey, (hft.withCounter _).draw]
  rw [hdraw]
  refine ⟨?_, ?_, ?_, h.decrypted⟩
  · simp [counterAt, UInt64.add_assoc]
  · intro i call hcl
    rcases Nat.lt_or_ge i s.calls.length with hlt | hge
    · rw [List.getElem?_append_left hlt] at hcl
      exact h.drawn i call hcl
    · obtain ⟨hi, rfl⟩ := List.getElem?_eq_some_iff.mp hcl
      simp only [List.length_append, List.length_singleton] at hi
      obtain rfl : i = s.calls.length := by omega
      simp
  · intro call hcl r hr
    rcases mem_append.mp hcl with hold | hnew
    · exact h.output call hold r hr
    · cases mem_singleton.mp hnew
      cases hr

theorem finish (h : Ordered c key base s) (hcl : s.calls[i]? = some call) :
    Ordered c key base { s with calls := s.calls.set i { call with
      output := some (call.drawn.bind (c.encryptUnder s.key call.plaintext)) } } := by
  refine ⟨?_, ?_, ?_, h.decrypted⟩
  · rw [length_set]
    exact h.sameKey
  · intro j call' hj
    rw [getElem?_set] at hj
    split at hj
    · rename_i heq
      subst heq
      split at hj
      · cases hj
        exact h.drawn i call hcl
      · cases hj
    · exact h.drawn j call' hj
  · intro call' hmem r hr
    rcases mem_or_eq_of_mem_set hmem with hold | rfl
    · exact h.output call' hold r hr
    · cases hr
      rw [h.sameKey]
      rfl

theorem step (hft : c.Fits key base) (h : Ordered c key base s)
    (hstep : KeyUse.step c s l = some s') : Ordered c key base s' := by
  cases l with
  | draw plaintext =>
    cases hstep
    exact h.draw hft
  | finish i =>
    simp only [KeyUse.step] at hstep
    split at hstep
    · cases hstep
    · rename_i call hcl
      split at hstep
      · cases hstep
      · cases hstep
        exact h.finish hcl
  | decrypt ciphertext =>
    cases hstep
    refine ⟨h.sameKey, h.drawn, h.output, ?_⟩
    intro e he
    rcases mem_append.mp he with hold | hnew
    · exact h.decrypted e hold
    · cases mem_singleton.mp hnew
      rw [h.sameKey]
      rfl

theorem drawn_of_mem (h : Ordered c key base s) (hcl : call ∈ s.calls) :
    ∃ n, call.drawn = .ok (xorNonceWithCounter base n, n) := by
  obtain ⟨i, hi⟩ := mem_iff_getElem?.mp hcl
  exact ⟨_, h.drawn i call hi⟩

theorem decrypts (h : Ordered c key base s) (hft : c.Fits key base) (ha : c.aead.Inverts)
    (hcl : call ∈ s.calls) (hout : call.output = some (.ok out)) :
    c.decrypt out key = .ok call.plaintext := by
  obtain ⟨n, hn⟩ := h.drawn_of_mem hcl
  have heq := h.output call hcl _ hout
  rw [hn] at heq
  exact hft.decrypt_encryptUnder ha heq.symm

end Ordered

def zeroKey : EncryptionKey :=
  ⟨.aes256Gcm, List.replicate 32 0, some (List.replicate 12 0), 18446744073709551615⟩

end KeyUse

end Kojacoord
