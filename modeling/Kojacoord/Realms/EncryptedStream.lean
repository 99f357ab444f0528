import Kojacoord.Auth.Encryption
import Kojacoord.Protocol.Codec

namespace Kojacoord.Realms
open Keystream List

inductive StreamError where
  | writeZero (message : String)
  | inner (kind : IoErrorKind) (message : String)

inductive Poll (α : Type) where
  | pending
  | ready (result : Except StreamError α)

/-- Anything that bytes can be written to. It takes no more of a buffer than there is. -/
structure AsyncWrite (ι : Type) where
  pollWrite : ι → (buf : List UInt8) → Poll (Fin (buf.length + 1)) × ι
  pollFlush : ι → Poll Unit × ι
  pollShutdown : ι → Poll Unit × ι

/-- A stream with the cipher of its two directions. The last field is its history: all that the
inner stream has taken. -/
structure EncryptedStream (ι : Type) where
  inner : ι
  enc : Option Aes128CfbEnc
  dec : Option Aes128CfbDec
  pending : List UInt8
  taken : List UInt8

namespace EncryptedStream
variable {ι : Type} (w : AsyncWrite ι)

def new (inner : ι) : EncryptedStream ι := ⟨inner, none, none, [], []⟩

def enable (s : EncryptedStream ι) (enc : Aes128CfbEnc) (dec : Aes128CfbDec) : EncryptedStream ι :=
  { s with enc := some enc, dec := some dec }

def drain (s : EncryptedStream ι) : Poll Unit × EncryptedStream ι :=
  if s.pending = [] then (.ready (.ok ()), s)
  else
    match w.pollWrite s.inner s.pending with
    | (.pending, inner) => (.pending, { s with inner })
    | (.ready (.error e), inner) => (.ready (.error e), { s with inner })
    | (.ready (.ok n), inner) =>
      if n.val = 0 then (.ready (.error (.writeZero "realm stream closed")), { s with inner })
      else drain { s with
        inner
        pending := s.pending.drop n
        taken := s.taken ++ s.pending.take n }
termination_by s.pending.length
decreasing_by
  rename_i hpending hn
  have := length_pos_iff.mpr hpending
  simp only [length_drop]
  omega

def buffer (s : EncryptedStream ι) (buf : List UInt8) : EncryptedStream ι :=
  match s.enc with
  | some enc =>
    { s with
      enc := some (BufCfb.encrypt.run enc buf).1
      pending := s.pending ++ (BufCfb.encrypt.run enc buf).2 }
  | none => { s with pending := s.pending ++ buf }

def pollWrite (s : EncryptedStream ι) (buf : List UInt8) : Poll Nat × EncryptedStream ι :=
  (.ready (.ok buf.length), (drain w (s.buffer buf)).2)

def afterDrain (poll : ι → Poll Unit × ι) (s : EncryptedStream ι) : Poll Unit × EncryptedStream ι :=
  match drain w s with
  | (.ready (.ok ()), s) => ((poll s.inner).1, { s with inner := (poll s.inner).2 })
  | other => other

def pollFlush (s : EncryptedStream ι) : Poll Unit × EncryptedStream ι := afterDrain w w.pollFlush s

def pollShutdown (s : EncryptedStream ι) : Poll Unit × EncryptedStream ι :=
  afterDrain w w.pollShutdown s

inductive Call where
  | write (buf : List UInt8)
  | flush
  | shutdown
  | enable (enc : Aes128CfbEnc) (dec : Aes128CfbDec)

def step (s : EncryptedStream ι) : Call → EncryptedStream ι
  | .write buf => (pollWrite w s buf).2
  | .flush => (pollFlush w s).2
  | .shutdown => (pollShutdown w s).2
  | .enable enc dec => s.enable enc dec

def run (s : EncryptedStream ι) (calls : List Call) : EncryptedStream ι := calls.foldl (step w) s

def sealed : Option Aes128CfbEnc → List UInt8 → List UInt8
  | none, text => text
  | some enc, text => (BufCfb.encrypt.run enc text).2

/-- What some calls are to put on the wire, when `text` has been written since the cipher is the
present one: the text between two changes of the cipher, sealed as a whole. -/
def onWire : Option Aes128CfbEnc → List UInt8 → List Call → List UInt8
  | cipher, text, [] => sealed cipher text
  | cipher, text, .write buf :: calls => onWire cipher (text ++ buf) calls
  | cipher, text, .flush :: calls => onWire cipher text calls
  | cipher, text, .shutdown :: calls => onWire cipher text calls
  | cipher, text, .enable enc _ :: calls => sealed cipher text ++ onWire (some enc) [] calls

variable {w} {s t : EncryptedStream ι}

structure Drained (s t : EncryptedStream ι) : Prop where
  enc : t.enc = s.enc
  bytes : t.taken ++ t.pending = s.taken ++ s.pending

theorem drained_drain (s : EncryptedStream ι) : Drained s (drain w s).2 := by
  fun_induction drain w s with
  | case1 s hemp | case2 s hpend inner hpoll | case3 s hpend e inner hpoll
  | case4 s hpend n inner hpoll hn => exact ⟨rfl, rfl⟩
  | case5 s hpend n inner hpoll hn ih =>
    refine ⟨ih.enc, ih.bytes.trans ?_⟩
    rw [append_assoc, take_append_drop]

theorem pending_of_drain (h : (drain w s).1 = .ready (.ok ())) : (drain w s).2.pending = [] := by
  fun_induction drain w s with
  | case1 s hemp => exact hemp
  | case2 s hpend inner hpoll | case3 s hpend e inner hpoll
  | case4 s hpend n inner hpoll hn => cases h
  | case5 s hpend n inner hpoll hn ih => exact ih h

theorem afterDrain_ok (h : drain w s = (.ready (.ok ()), t)) :
    afterDrain w poll s = ((poll t.inner).1, { t with inner := (poll t.inner).2 }) := by
  rw [afterDrain, h]

theorem afterDrain_other (h : (drain w s).1 ≠ .ready (.ok ())) :
    afterDrain w poll s = drain w s := by
  rw [afterDrain]
  split
  · rename_i heq
    rw [heq] at h
    exact absurd rfl h
  · rfl

theorem drained_afterDrain (poll : ι → Poll Unit × ι) :
    Drained s (afterDrain w poll s).2 := by
  have hdra := drained_drain (w := w) s
  by_cases hok : (drain w s).1 = .ready (.ok ())
  · rw [afterDrain_ok (Prod.ext hok rfl)]
    exact ⟨hdra.enc, hdra.bytes⟩
  · rw [afterDrain_other hok]
    exact hdra

theorem pending_of_afterDrain {poll : ι → Poll Unit × ι}
    (h : (afterDrain w poll s).1 = .ready (.ok ())) : (afterDrain w poll s).2.pending = [] := by
  by_cases hok : (drain w s).1 = .ready (.ok ())
  · rw [afterDrain_ok (Prod.ext hok rfl)]
    exact pending_of_drain hok
  · rw [afterDrain_other hok] at h
    exact absurd h hok

/-- The stream when `text` has been written since the cipher is this one, and `front` before. -/
structure Carries (front : List UInt8) (cipher : Option Aes128CfbEnc) (text : List UInt8)
    (s : EncryptedStream ι) : Prop where
  enc : s.enc = cipher.map fun enc => (BufCfb.encrypt.run enc text).1
  bytes : s.taken ++ s.pending = front ++ sealed cipher text

theorem Carries.start (inner : ι) : Carries [] none [] (new inner) := ⟨rfl, rfl⟩

theorem Carries.drained (h : Carries front cipher text s) (hst : Drained s t) :
    Carries front cipher text t :=
  ⟨hst.enc.trans h.enc, hst.bytes.trans h.bytes⟩

theorem Carries.buffer (h : Carries front cipher text s) (buf : List UInt8) :
    Carries front cipher (text ++ buf) (s.buffer buf) := by
  have hbs := h.bytes
  cases cipher with
  | none =>
    have henc : s.enc = none := h.enc
    rw [EncryptedStream.buffer, henc]
    refine ⟨rfl, ?_⟩
    dsimp only [sealed] at hbs ⊢
    rw [← append_assoc, hbs, append_assoc]
  | some enc =>
    have henc : s.enc = some (BufCfb.encrypt.run enc text).1 := h.enc
    have happ := BufCfb.chunked_encrypt.append enc text buf
    rw [EncryptedStream.buffer, henc]
    refine ⟨?_, ?_⟩
    · rw [Option.map_some, happ]
    · dsimp only [sealed] at hbs ⊢
      rw [happ, ← append_assoc, hbs, append_assoc]

theorem Carries.enable (h : Carries front cipher text s) (enc : Aes128CfbEnc) (dec : Aes128CfbDec) :
    Carries (front ++ sealed cipher text) (some enc) [] (s.enable enc dec) := by
  refine ⟨?_, ?_⟩
  · rw [Option.map_some, BufCfb.chunked_encrypt.nil]
    rfl
  · rw [sealed, BufCfb.chunked_encrypt.nil, append_nil]
    exact h.bytes

theorem Carries.run (h : Carries front cipher text s) (calls : List Call) :
    (run w s calls).taken ++ (run w s calls).pending = front ++ onWire cipher text calls := by
  induction calls generalizing front cipher text s with
  | nil => exact h.bytes
  | cons call calls ih =>
    cases call with
    | write buf => exact ih ((h.buffer buf).drained (drained_drain _))
    | flush | shutdown => exact ih (h.drained (drained_afterDrain _))
    | enable enc dec =>
      rw [onWire, ← append_assoc]
      exact ih (h.enable enc dec)

def written (calls : List Call) : List UInt8 :=
  calls.flatMap fun
    | .write buf => buf
    | _ => []

def Steady (calls : List Call) : Prop := ∀ enc dec, Call.enable enc dec ∉ calls

theorem Steady.tail (h : Steady (call :: calls)) : Steady calls :=
  fun enc dec hmem => h enc dec (mem_cons_of_mem _ hmem)

theorem onWire_append (h : Steady calls) (cipher : Option Aes128CfbEnc) (text : List UInt8)
    (more : List Call) :
    onWire cipher text (calls ++ more) = onWire cipher (text ++ written calls) more := by
  induction calls generalizing text with
  | nil => rw [written, flatMap_nil, append_nil, nil_append]
  | cons call calls ih =>
    have hrs := fun text => ih h.tail text
    cases call with
    | write buf =>
      rw [cons_append, onWire, hrs, append_assoc]
      rfl
    | flush | shutdown => exact hrs text
    | enable enc dec => exact absurd (mem_cons_self ..) (h enc dec)

theorem onWire_steady (h : Steady calls) (cipher : Option Aes128CfbEnc) (text : List UInt8) :
    onWire cipher text calls = sealed cipher (text ++ written calls) := by
  have hall := onWire_append h cipher text []
  rwa [append_nil] at hall

/-- What the inner stream has taken and what is pending always make up the text from before
encryption and the encryption of all the text after it; a flush that is through leaves nothing
pending. -/
theorem wire_of_calls (w : AsyncWrite ι) (inner : ι) :
    (∀ calls, (run w (new inner) calls).taken ++ (run w (new inner) calls).pending =
      onWire none [] calls) ∧
    (∀ before, Steady before →
      (run w (new inner) before).taken ++ (run w (new inner) before).pending = written before) ∧
    (∀ before enc dec after, Steady before → Steady after →
      (run w (new inner) (before ++ .enable enc dec :: after)).taken ++
        (run w (new inner) (before ++ .enable enc dec :: after)).pending =
      written before ++ (BufCfb.encrypt.run enc (written after)).2) ∧
    ∀ calls, (pollFlush w (run w (new inner) calls)).1 = .ready (.ok ()) →
      (pollFlush w (run w (new inner) calls)).2.pending = [] := by
  have hwire : ∀ calls, (run w (new inner) calls).taken ++ (run w (new inner) calls).pending =
      onWire none [] calls := (Carries.start inner).run
  refine ⟨hwire, ?_, ?_, ?_⟩
  · intro before hbefore
    rw [hwire, onWire_steady hbefore]
    rfl
  · intro before enc dec after hbefore hafter
    rw [hwire, onWire_append hbefore, onWire, onWire_steady hafter]
    rfl
  · intro calls hok
    exact pending_of_afterDrain hok

def hesitant : AsyncWrite Bool where
  pollWrite busy _ := if busy then (.pending, false) else (.ready (.ok (.ofNat _ 1)), true)
  pollFlush busy := (.ready (.ok ()), busy)
  pollShutdown busy := (.ready (.ok ()), busy)

def zeroKey : BufCfb := .new BlockCipher.Aes.encryptBlock (.fill 0) (.fill 0)

theorem wire_of_calls_hesitant :
    (run hesitant (new true) ([.write [1, 2]] ++ .enable zeroKey zeroKey ::
      [.flush, .write [3], .flush])).taken ++
    (run hesitant (new true) ([.write [1, 2]] ++ .enable zeroKey zeroKey ::
      [.flush, .write [3], .flush])).pending = [1, 2, 0x65] := by
  have hwire := (wire_of_calls hesitant true).2.2.1 [.write [1, 2]] zeroKey zeroKey
    [.flush, .write [3], .flush] (by simp [Steady]) (by simp [Steady])
  rw [hwire]
  decide +kernel

end EncryptedStream

end Kojacoord.Realms
