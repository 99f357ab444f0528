import Kojacoord.Lib.Journal
import Kojacoord.Net.Stream

namespace Kojacoord
open Journal List

def Arrival.available : List Arrival → List UInt8
  | [] => []
  | .bytes first rest :: arrivals => first :: rest ++ available arrivals
  | .pause _ :: arrivals => available arrivals
  | .error _ :: _ => []

def McStream.available (s : McStream) : List UInt8 := s.pushed ++ Arrival.available s.arrivals

namespace Reader

theorem awaitArrival_ok (h : awaitArrival budget arrivals = (.ok (), budget', arrivals')) :
    Arrival.available arrivals' = Arrival.available arrivals ∧
      (arrivals' = [] ∨ ∃ first rest later, arrivals' = .bytes first rest :: later) := by
  fun_induction awaitArrival budget arrivals with
  | case1 ms rest ih | case3 ms rest left hle ih => exact ih h
  | case2 ms rest left hle | case4 => cases h
  | case5 budget arrivals hpau herr =>
    cases h
    refine ⟨rfl, ?_⟩
    cases arrivals' with
    | nil => exact .inl rfl
    | cons arrival arrivals =>
      cases arrival with
      | bytes first rest => exact .inr ⟨first, rest, arrivals, rfl⟩
      | pause ms => exact absurd rfl (hpau _ _)
      | error kind => exact absurd rfl (herr _ _)

theorem awaitArrival_failed
    (h : awaitArrival budget arrivals = (.error (.failed e), budget', arrivals')) :
    Arrival.available arrivals = [] := by
  fun_induction awaitArrival budget arrivals with
  | case1 ms rest ih => exact ih h
  | case2 ms rest left hle | case5 => cases h
  | case3 ms rest left hle ih => exact ih h
  | case4 => rfl

def putBack (left : List UInt8) (arrivals : List Arrival) : List Arrival :=
  match left with
  | [] => arrivals
  | b :: bs => .bytes b bs :: arrivals

theorem available_putBack (left : List UInt8) (arrivals : List Arrival) :
    Arrival.available (putBack left arrivals) = left ++ Arrival.available arrivals := by
  cases left <;> rfl

inductive ReadResult (n : Nat) (s : McStream) : Except Stop (List UInt8) × McStream → Prop
  | pushed : s.pushed ≠ [] →
      ReadResult n s (.ok (s.pushed.take n), { s with pushed := s.pushed.drop n })
  | stopped : s.pushed = [] → awaitArrival s.budget s.arrivals = (.error e, budget, arrivals) →
      ReadResult n s (.error e, { s with budget := budget, arrivals := arrivals })
  | chunk : s.pushed = [] →
      awaitArrival s.budget s.arrivals = (.ok (), budget, .bytes first rest :: later) →
      ReadResult n s (.ok ((first :: rest).take n),
        { s with budget := budget, arrivals := putBack ((first :: rest).drop n) later })
  | ended : s.pushed = [] → awaitArrival s.budget s.arrivals = (.ok (), budget, []) →
      ReadResult n s (.ok [], { s with budget := budget, arrivals := [] })

theorem readResult (n : Nat) (s : McStream) : ReadResult n s ((read n).run s) := by
  by_cases hpsh : s.pushed = []
  · generalize hawa : awaitArrival s.budget s.arrivals = result
    obtain ⟨outcome, budget, arrivals⟩ := result
    have harr :
        arrival.run s = (outcome, { s with budget := budget, arrivals := arrivals }) := by
      change ((awaitArrival s.budget s.arrivals).1, { s with
        budget := (awaitArrival s.budget s.arrivals).2.1,
        arrivals := (awaitArrival s.budget s.arrivals).2.2 }) = _
      rw [hawa]
    rw [read, run_bind_ok _ (run_get s), if_neg (not_not.mpr hpsh)]
    cases outcome with
    | error e =>
      rw [run_bind_error _ harr]
      exact .stopped hpsh hawa
    | ok u =>
      rw [run_bind_ok _ harr, run_bind_ok _ (run_get _)]
      rcases (awaitArrival_ok hawa).2 with rfl | ⟨first, rest, later, rfl⟩
      · exact .ended hpsh hawa
      · exact .chunk hpsh hawa
  · rw [read, run_bind_ok _ (run_get s), if_pos hpsh]
    exact .pushed hpsh

theorem read_ok (h : (read n).run s = (.ok bytes, t)) : s.available = bytes ++ t.available := by
  have hres := readResult n s
  rw [h] at hres
  generalize hpr : (Except.ok bytes, t) = pair at hres
  cases hres with
  | pushed =>
    cases hpr
    rw [McStream.available, McStream.available, ← append_assoc, take_append_drop]
  | stopped => cases hpr
  | chunk hpsh hawa =>
    cases hpr
    rw [McStream.available, McStream.available, hpsh, available_putBack,
      ← (awaitArrival_ok hawa).1, nil_append, nil_append, ← append_assoc,
      take_append_drop]
    rfl
  | ended hpsh hawa =>
    cases hpr
    rw [McStream.available, McStream.available, hpsh, ← (awaitArrival_ok hawa).1]
    rfl

theorem read_length (h : (read n).run s = (.ok bytes, t)) : bytes.length ≤ n := by
  have hres := readResult n s
  rw [h] at hres
  generalize hpr : (Except.ok bytes, t) = pair at hres
  cases hres with
  | pushed | chunk => cases hpr; exact length_take_le ..
  | stopped => cases hpr
  | ended => cases hpr; exact Nat.zero_le _

theorem read_nil (h : (read (n + 1)).run s = (.ok [], t)) : s.available = [] := by
  have hres := readResult (n + 1) s
  rw [h] at hres
  generalize hpr : ((Except.ok [] : Except Stop (List UInt8)), t) = pair at hres
  cases hres with
  | pushed hpsh =>
    cases hs : s.pushed with
    | nil => exact absurd hs hpsh
    | cons => rw [hs] at hpr; cases hpr
  | stopped | chunk => cases hpr
  | ended hpsh hawa =>
    rw [McStream.available, hpsh, ← (awaitArrival_ok hawa).1]
    rfl

theorem read_failed (h : (read n).run s = (.error (.failed e), t)) : s.available = [] := by
  have hres := readResult n s
  rw [h] at hres
  generalize hpr : ((Except.error (.failed e) : Except Stop (List UInt8)), t) = pair at hres
  cases hres with
  | stopped hpsh hawa =>
    cases hpr
    rw [McStream.available, hpsh, awaitArrival_failed hawa]
    rfl
  | _ => cases hpr

theorem readU8_ok (h : readU8.run s = (.ok byte, t)) : s.available = byte :: t.available := by
  obtain ⟨bytes, u, hrd, h⟩ := run_bind_eq_ok h
  have hlen := read_length hrd
  match bytes, hlen with
  | [b], _ =>
    cases h
    exact read_ok hrd

theorem readU8_failed (h : readU8.run s = (.error (.failed e), t)) : s.available = [] := by
  rcases run_bind_eq_error h with hrd | ⟨bytes, u, hrd, h⟩
  · exact read_failed hrd
  · cases bytes with
    | nil => exact read_nil hrd
    | cons => cases h

theorem readExact_ok (h : (readExact n).run s = (.ok bytes, t)) :
    s.available = bytes ++ t.available ∧ bytes.length = n := by
  induction n generalizing s bytes with
  | zero => cases h; exact ⟨rfl, rfl⟩
  | succ n ih =>
    obtain ⟨byte, u, hby, h⟩ := run_bind_eq_ok h
    obtain ⟨rest, v, hrs, h⟩ := run_bind_eq_ok h
    cases h
    obtain ⟨hu, hlen⟩ := ih hrs
    rw [readU8_ok hby, hu]
    exact ⟨rfl, congrArg Nat.succ hlen⟩

theorem readExact_failed (h : (readExact n).run s = (.error (.failed e), t)) :
    s.available.length < n := by
  induction n generalizing s with
  | zero => cases h
  | succ n ih =>
    rcases run_bind_eq_error h with hby | ⟨byte, u, hby, h⟩
    · rw [readU8_failed hby]
      exact Nat.succ_pos n
    · rcases run_bind_eq_error h with hrs | ⟨rest, v, hrs, h⟩
      · rw [readU8_ok hby]
        exact Nat.succ_lt_succ (ih hrs)
      · cases h

end Reader

def McStream.Flowing (s : McStream) : Prop :=
  ∀ arrival ∈ s.arrivals, ∃ first rest, arrival = .bytes first rest

def McStream.chunk (s : McStream) : List UInt8 :=
  if s.pushed ≠ [] then s.pushed
  else match s.arrivals with
    | .bytes first rest :: _ => first :: rest
    | _ => []

namespace Reader

theorem awaitArrival_flowing (h : ∀ arrival ∈ arrivals, ∃ first rest, arrival = .bytes first rest) :
    awaitArrival budget arrivals = (.ok (), budget, arrivals) := by
  cases arrivals with
  | nil => rfl
  | cons arrival arrivals =>
    obtain ⟨first, rest, rfl⟩ := h arrival (mem_cons_self ..)
    rfl

theorem read_flowing (n : Nat) (hs : s.Flowing) :
    ∃ t, (read n).run s = (.ok (s.chunk.take n), t) ∧ t.Flowing := by
  have hres := readResult n s
  generalize (read n).run s = result at hres
  have hawa : awaitArrival s.budget s.arrivals = _ := awaitArrival_flowing hs
  cases hres with
  | pushed hpsh =>
    refine ⟨_, by rw [McStream.chunk, if_pos hpsh], ?_⟩
    exact hs
  | stopped hpsh hsto =>
    rw [hawa] at hsto
    cases hsto
  | chunk hpsh hchu =>
    rw [hawa] at hchu
    have harri := (Prod.mk.inj (Prod.mk.inj hchu).2).2
    refine ⟨_, by rw [McStream.chunk, if_neg (not_not.mpr hpsh), harri], ?_⟩
    intro arrival harr
    dsimp only [putBack] at harr
    split at harr
    · exact hs arrival (harri ▸ mem_cons_of_mem _ harr)
    · rcases mem_cons.mp harr with rfl | harr
      · exact ⟨_, _, rfl⟩
      · exact hs arrival (harri ▸ mem_cons_of_mem _ harr)
  | ended hpsh hend =>
    rw [hawa] at hend
    have harri : s.arrivals = [] := (Prod.mk.inj (Prod.mk.inj hend).2).2
    refine ⟨_, by rw [McStream.chunk, if_neg (not_not.mpr hpsh), harri, take_nil], ?_⟩
    intro arrival harr
    cases harr

/-- On every flowing stream that begins with these bytes, the code reads them and yields `a`. -/
def Takes (x : Reader α) (bytes : List UInt8) (a : α) : Prop :=
  ∀ s rest, s.Flowing → s.available = bytes ++ rest →
    ∃ t, x.run s = (.ok a, t) ∧ t.Flowing ∧ t.available = rest

theorem Takes.pure (a : α) : Takes (.pure a) [] a := fun s _ hs hrs => ⟨s, rfl, hs, hrs⟩

theorem Takes.bind {x : Reader α} {f : α → Reader β} (hx : Takes x xs a) (hf : Takes (f a) ys b) :
    Takes (x >>= f) (xs ++ ys) b := by
  intro s rest hs hrs
  obtain ⟨t, hrun, ht, hrs⟩ := hx s (ys ++ rest) hs (by rw [hrs, append_assoc])
  obtain ⟨u, hrun', hu, hrs⟩ := hf t rest ht hrs
  exact ⟨u, by rw [run_bind_ok _ hrun, hrun'], hu, hrs⟩

theorem Takes.finish {x : Reader α} {f : α → Reader β} (hx : Takes x xs a) (hf : Takes (f a) [] b) :
    Takes (x >>= f) xs b := by
  simpa using hx.bind hf

theorem takes_readU8 (byte : UInt8) : Takes readU8 [byte] byte := by
  intro s rest hs hrs
  obtain ⟨t, hrun, ht⟩ := read_flowing 1 hs
  have hav := read_ok hrun
  have hlen := read_length hrun
  generalize s.chunk.take 1 = bytes at hrun hav hlen
  match bytes, hlen with
  | [], _ =>
    rw [read_nil hrun] at hrs
    cases hrs
  | [b], _ =>
    rw [hrs] at hav
    obtain ⟨rfl, rfl⟩ := List.cons.inj hav
    exact ⟨t, by rw [readU8, run_bind_ok _ hrun]; rfl, ht, rfl⟩

theorem readU8_end (hs : s.Flowing) (hemp : s.available = []) :
    ∃ t, readU8.run s = (.error (.failed (.io .unexpectedEof "early eof")), t) ∧
      t.available = [] := by
  obtain ⟨t, hrun, -⟩ := read_flowing 1 hs
  have hav := read_ok hrun
  rw [hemp] at hav
  obtain ⟨hbs, ht⟩ := append_eq_nil_iff.mp hav.symm
  rw [hbs] at hrun
  exact ⟨t, by rw [readU8, run_bind_ok _ hrun]; rfl, ht⟩

theorem readExact_end (hs : s.Flowing) (hsh : s.available.length < n) :
    ∃ t, (readExact n).run s = (.error (.failed (.io .unexpectedEof "early eof")), t) ∧
      t.available = [] := by
  induction n generalizing s with
  | zero => cases hsh
  | succ n ih =>
    cases hav : s.available with
    | nil =>
      obtain ⟨t, hrun, ht⟩ := readU8_end hs hav
      exact ⟨t, run_bind_error _ hrun, ht⟩
    | cons byte rest =>
      obtain ⟨u, hrun, hu, hrs⟩ := takes_readU8 byte s rest hs hav
      rw [hav, ← hrs] at hsh
      obtain ⟨t, hrun', ht⟩ := ih hu (Nat.lt_of_succ_lt_succ hsh)
      exact ⟨t, by rw [readExact, run_bind_ok _ hrun, run_bind_error _ hrun'], ht⟩

theorem takes_readExact (bytes : List UInt8) : Takes (readExact bytes.length) bytes bytes := by
  induction bytes with
  | nil => exact .pure []
  | cons byte bytes ih => exact (takes_readU8 byte).bind (ih.finish (.pure _))

theorem readExact_flowing (hs : s.Flowing) (h : n ≤ s.available.length) :
    ∃ t, (readExact n).run s = (.ok (s.available.take n), t) ∧ t.Flowing ∧
      t.available = s.available.drop n := by
  have htak := takes_readExact (s.available.take n)
  rw [length_take_of_le h] at htak
  exact htak s _ hs (take_append_drop n _).symm

end Reader

end Kojacoord
