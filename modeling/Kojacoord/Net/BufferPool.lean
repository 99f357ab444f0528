import Mathlib.Data.List.Basic

namespace Kojacoord
open List

structure BytesMut where
  capacity : Nat
  content : List UInt8
  fits : content.length ≤ capacity

def BytesMut.clear (b : BytesMut) : BytesMut := ⟨b.capacity, [], Nat.zero_le _⟩

/-- `BytesMut::with_capacity`: there may be more room in the new buffer than was asked for. -/
structure Allocator where
  withCapacity : Nat → BytesMut
  capacity_le : ∀ n, n ≤ (withCapacity n).capacity
  content_nil : ∀ n, (withCapacity n).content = []

structure ArrayQueue (α : Type) (depth : Nat) where
  items : List α
  bounded : items.length ≤ depth

namespace ArrayQueue
variable {depth : Nat}

def new : ArrayQueue α depth := ⟨[], Nat.zero_le _⟩

def pop (q : ArrayQueue α depth) : Option α × ArrayQueue α depth :=
  (q.items.head?, ⟨q.items.tail, Nat.le_trans (by simp) q.bounded⟩)

def push (q : ArrayQueue α depth) (a : α) : Except α (ArrayQueue α depth) :=
  if h : q.items.length < depth then .ok ⟨q.items ++ [a], by rwa [length_append]⟩ else .error a

end ArrayQueue

def smallMax : Nat := 2048
def mediumMax : Nat := 32768
def largeMax : Nat := 524288

def smallDepth : Nat := 64
def mediumDepth : Nat := 64
def largeDepth : Nat := 16

structure BufferPool where
  small : ArrayQueue BytesMut smallDepth
  medium : ArrayQueue BytesMut mediumDepth
  large : ArrayQueue BytesMut largeDepth

namespace BufferPool
variable (alloc : Allocator)

def new : BufferPool := ⟨.new, .new, .new⟩

def take (sizeHint minCap : Nat) : Option BytesMut → BytesMut
  | some buf => if buf.capacity ≥ sizeHint then buf.clear else alloc.withCapacity minCap
  | none => alloc.withCapacity minCap

def acquire (p : BufferPool) (sizeHint : Nat) : BytesMut × BufferPool :=
  if sizeHint ≤ smallMax then
    let (buf, small) := p.small.pop
    (take alloc sizeHint (max smallMax sizeHint) buf, { p with small })
  else if sizeHint ≤ mediumMax then
    let (buf, medium) := p.medium.pop
    (take alloc sizeHint (max mediumMax sizeHint) buf, { p with medium })
  else
    let (buf, large) := p.large.pop
    (take alloc sizeHint sizeHint buf, { p with large })

def keep {depth : Nat} (q : ArrayQueue BytesMut depth) (buffer : BytesMut) :
    ArrayQueue BytesMut depth :=
  match q.push buffer with
  | .ok q => q
  | .error _ => q

def release (p : BufferPool) (buffer : BytesMut) : BufferPool :=
  let buffer := buffer.clear
  let cap := buffer.capacity
  if cap ≤ smallMax then { p with small := keep p.small buffer }
  else if cap ≤ mediumMax then { p with medium := keep p.medium buffer }
  else if cap ≤ largeMax then { p with large := keep p.large buffer }
  else p

inductive Op where
  | acquire (sizeHint : Nat)
  | release (buffer : BytesMut)

structure Acquired where
  sizeHint : Nat
  buffer : BytesMut

def run : List Op → BufferPool → List Acquired × BufferPool
  | [], p => ([], p)
  | .acquire n :: ops, p =>
    let (buffer, p) := acquire alloc p n
    let (acquired, p) := run ops p
    (⟨n, buffer⟩ :: acquired, p)
  | .release buffer :: ops, p => run ops (p.release buffer)

structure Sized (p : BufferPool) : Prop where
  small : ∀ b ∈ p.small.items, b.capacity ≤ smallMax
  medium : ∀ b ∈ p.medium.items, b.capacity ≤ mediumMax
  large : ∀ b ∈ p.large.items, b.capacity ≤ largeMax

theorem take_serves (h : n ≤ minCap) (buf : Option BytesMut) :
    (take alloc n minCap buf).content = [] ∧ n ≤ (take alloc n minCap buf).capacity := by
  have hnew := Nat.le_trans h (alloc.capacity_le minCap)
  unfold take
  split
  · split
    · rename_i hlar
      exact ⟨rfl, hlar⟩
    · exact ⟨alloc.content_nil _, hnew⟩
  · exact ⟨alloc.content_nil _, hnew⟩

theorem acquire_serves (p : BufferPool) (n : Nat) :
    (acquire alloc p n).1.content = [] ∧ n ≤ (acquire alloc p n).1.capacity := by
  unfold acquire
  split
  · exact take_serves alloc (Nat.le_max_right _ _) _
  · split
    · exact take_serves alloc (Nat.le_max_right _ _) _
    · exact take_serves alloc (Nat.le_refl n) _

theorem Sized.acquire (h : Sized p) (n : Nat) : Sized (acquire alloc p n).2 := by
  unfold BufferPool.acquire
  split
  · exact ⟨fun b hb => h.small b (mem_of_mem_tail hb), h.medium, h.large⟩
  · split
    · exact ⟨h.small, fun b hb => h.medium b (mem_of_mem_tail hb), h.large⟩
    · exact ⟨h.small, h.medium, fun b hb => h.large b (mem_of_mem_tail hb)⟩

theorem forall_keep {depth : Nat} {q : ArrayQueue BytesMut depth} {P : BytesMut → Prop}
    (h : ∀ b ∈ q.items, P b) (hbuf : P buffer) : ∀ b ∈ (keep q buffer).items, P b := by
  intro b hb
  rw [keep, ArrayQueue.push] at hb
  split at hb
  · rename_i hpush
    split at hpush
    · cases hpush
      rcases mem_append.mp hb with hold | hnew
      · exact h b hold
      · rwa [mem_singleton.mp hnew]
    · cases hpush
  · exact h b hb

theorem Sized.release (h : Sized p) (buffer : BytesMut) : Sized (p.release buffer) := by
  unfold BufferPool.release
  dsimp only
  split
  · rename_i hcap
    exact ⟨forall_keep h.small hcap, h.medium, h.large⟩
  · split
    · rename_i hcap
      exact ⟨h.small, forall_keep h.medium hcap, h.large⟩
    · split
      · rename_i hcap
        exact ⟨h.small, h.medium, forall_keep h.large hcap⟩
      · exact h

theorem Sized.run (h : Sized p) (ops : List Op) :
    (∀ a ∈ (run alloc ops p).1, a.buffer.content = [] ∧ a.sizeHint ≤ a.buffer.capacity) ∧
      Sized (run alloc ops p).2 := by
  induction ops generalizing p with
  | nil => exact ⟨forall_mem_nil _, h⟩
  | cons op ops ih =>
    cases op with
    | acquire n =>
      obtain ⟨hrs, hsiz⟩ := ih (h.acquire alloc n)
      exact ⟨forall_mem_cons.mpr ⟨acquire_serves alloc p n, hrs⟩, hsiz⟩
    | release buffer => exact ih (h.release buffer)

theorem sized_new : Sized new :=
  ⟨forall_mem_nil _, forall_mem_nil _, forall_mem_nil _⟩

/-- Whatever is released, every buffer acquired is empty and large enough, and the pool stays within
its depths and keeps no buffer above the largest size. -/
theorem pool_serves (ops : List Op) :
    (∀ a ∈ (run alloc ops new).1, a.buffer.content = [] ∧ a.sizeHint ≤ a.buffer.capacity) ∧
      ((run alloc ops new).2.small.items.length ≤ 64 ∧
        (run alloc ops new).2.medium.items.length ≤ 64 ∧
        (run alloc ops new).2.large.items.length ≤ 16) ∧
      ∀ b ∈ (run alloc ops new).2.small.items ++ (run alloc ops new).2.medium.items ++
        (run alloc ops new).2.large.items, b.capacity ≤ largeMax := by
  obtain ⟨hacquired, hsized⟩ := sized_new.run alloc ops
  generalize (run alloc ops new).2 = p at hsized ⊢
  refine ⟨hacquired, ⟨p.small.bounded, p.medium.bounded, p.large.bounded⟩, ?_⟩
  intro b hb
  rcases mem_append.mp hb with hb | hlarge
  · rcases mem_append.mp hb with hsmall | hmedium
    · exact Nat.le_trans (hsized.small b hsmall) (by decide)
    · exact Nat.le_trans (hsized.medium b hmedium) (by decide)
  · exact hsized.large b hlarge

end BufferPool

end Kojacoord
