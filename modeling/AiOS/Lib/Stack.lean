import AiOS.Lib.LittleEndian

/-!
This module contains memory of bytes under 32 bit addresses, the words in it, and stacks of words
that grow downwards.
-/

abbrev Memory32 : Type :=
  UInt32 → UInt8

namespace Memory32

def load (m : Memory32) (a : UInt32) : UInt32 :=
  LittleEndian.toUInt32 (m a) (m (a + 1)) (m (a + 2)) (m (a + 3))

def store (m : Memory32) (a x : UInt32) : Memory32 :=
  fun b => if (b - a).toNat < 4 then LittleEndian.byte x.toNat (b - a).toNat else m b

theorem store_add (m : Memory32) (a x : UInt32) {k : UInt32} (hk : k.toNat < 4)
    : m.store a x (a + k) = LittleEndian.byte x.toNat k.toNat := by
  unfold store
  rw [UInt32.add_comm, UInt32.add_sub_cancel, if_pos hk]

theorem load_store (m : Memory32) (a x : UInt32) : (m.store a x).load a = x := by
  have hzero := store_add m a x (k := 0) (by decide)
  rw [UInt32.add_zero] at hzero
  unfold load
  rw [hzero, store_add m a x (by decide), store_add m a x (by decide), store_add m a x (by decide)]
  apply LittleEndian.toUInt32_byte

def Apart (a b : UInt32) : Prop :=
  4 ≤ (b - a).toNat ∧ 4 ≤ (a - b).toNat

theorem load_store_of_apart (m : Memory32) {a b : UInt32} (x : UInt32) (h : Apart a b)
    : (m.store a x).load b = m.load b := by
  have hmiss : ∀ k : UInt32, k.toNat < 4 → m.store a x (b + k) = m (b + k) := by
    intro k hk
    unfold store
    rw [if_neg]
    have hne : b ≠ a := by
      intro heq
      have := h.1
      rw [heq, UInt32.sub_self] at this
      contradiction
    have hle := h.1
    have hge := h.2
    rw [UInt32.toNat_sub] at hle hge
    rw [UInt32.toNat_sub, UInt32.toNat_add]
    have := a.toNat_lt
    have := b.toNat_lt
    omega
  have hzero := hmiss 0 (by decide)
  rw [UInt32.add_zero] at hzero
  unfold load
  rw [hzero, hmiss 1 (by decide), hmiss 2 (by decide), hmiss 3 (by decide)]

def Holds (m : Memory32) (a : UInt32) : List UInt32 → Prop
  | [] => True
  | x :: xs => m.load a = x ∧ m.Holds (a + 4) xs

variable {m : Memory32} {a x y : UInt32} {xs ys : List UInt32}

theorem word_succ (a : UInt32) (k : Nat)
    : a + UInt32.ofNat (4 * (k + 1)) = a + 4 + UInt32.ofNat (4 * k) := by
  rw [Nat.mul_succ, UInt32.ofNat_add, UInt32.add_assoc]
  congr 1
  rw [UInt32.add_comm]
  rfl

theorem Holds.get (h : m.Holds a xs) (k : Nat) (hk : xs[k]? = some y)
    : m.load (a + UInt32.ofNat (4 * k)) = y := by
  induction k generalizing a xs with
  | zero =>
    cases xs with
    | nil => simp at hk
    | cons x xs =>
      rw [List.getElem?_cons_zero] at hk
      injection hk with hk
      rw [← hk, ← h.1]
      congr 1
      simp
  | succ k ih =>
    cases xs with
    | nil => simp at hk
    | cons x xs =>
      rw [List.getElem?_cons_succ] at hk
      rw [← ih h.2 hk, word_succ]

theorem apart_of_add {b : UInt32} {d : Nat} (h : b + UInt32.ofNat d = a) (hlow : 4 ≤ d)
    (hhigh : d + 4 ≤ 2 ^ 32)
    : Apart b a := by
  have hd : (UInt32.ofNat d).toNat = d := UInt32.toNat_ofNat_of_lt' (by change d < 4294967296; omega)
  have hb := b.toNat_lt
  unfold Apart
  rw [← h]
  rw [UInt32.toNat_sub, UInt32.toNat_sub, UInt32.toNat_add, hd]
  omega

theorem apart_symm {b : UInt32} (h : Apart a b) : Apart b a :=
  ⟨h.2, h.1⟩

theorem Holds.store_below (h : m.Holds a xs) {b : UInt32} {d : Nat} (hb : b + UInt32.ofNat d = a)
    (hlow : 4 ≤ d) (hhigh : d + 4 * xs.length ≤ 2 ^ 32) (y : UInt32)
    : (m.store b y).Holds a xs := by
  induction xs generalizing a d with
  | nil => trivial
  | cons x xs ih =>
    rw [List.length_cons] at hhigh
    constructor
    . rw [load_store_of_apart _ _ (apart_of_add hb hlow (by omega))]
      exact h.1
    . apply ih h.2 (d := d + 4) _ (by omega) (by omega)
      rw [UInt32.ofNat_add, ← UInt32.add_assoc, hb]
      rfl

theorem Holds.push (h : m.Holds a xs) (hlength : 4 * xs.length + 4 ≤ 2 ^ 32) (x : UInt32)
    : (m.store (a - 4) x).Holds (a - 4) (x :: xs) := by
  constructor
  . apply load_store
  . rw [UInt32.sub_add_cancel]
    apply h.store_below (d := 4) _ (Nat.le_refl 4) (by omega)
    exact UInt32.sub_add_cancel a 4

theorem Holds.set (h : m.Holds a xs) (hlength : 4 * xs.length ≤ 2 ^ 32) {k : Nat}
    (hk : k < xs.length) (y : UInt32)
    : (m.store (a + UInt32.ofNat (4 * k)) y).Holds a (xs.set k y) := by
  induction k generalizing a xs with
  | zero =>
    cases xs with
    | nil => contradiction
    | cons x xs =>
      rw [List.length_cons] at hlength
      have hzero : a + UInt32.ofNat (4 * 0) = a := UInt32.add_zero a
      rw [hzero]
      constructor
      . apply load_store
      . apply Holds.store_below h.2 (d := 4) rfl (Nat.le_refl 4) (by omega)
  | succ k ih =>
    cases xs with
    | nil => contradiction
    | cons x xs =>
      rw [List.length_cons] at hk hlength
      constructor
      . rw [load_store_of_apart]
        . exact h.1
        . apply apart_symm
          apply apart_of_add rfl (by omega) (by omega)
      . have htail := ih h.2 (by omega) (by omega)
        rw [word_succ]
        exact htail

def write (m : Memory32) (a : UInt32) : List UInt32 → Memory32
  | [] => m
  | x :: xs => (m.write (a + 4) xs).store a x

theorem holds_write (m : Memory32) (a : UInt32) (xs : List UInt32) (hlength : 4 * xs.length ≤ 2 ^ 32)
    : (m.write a xs).Holds a xs := by
  induction xs generalizing a with
  | nil => trivial
  | cons x xs ih =>
    rw [List.length_cons] at hlength
    constructor
    . apply load_store
    . apply Holds.store_below (ih (a + 4) (by omega)) (d := 4) rfl (Nat.le_refl 4) (by omega)

theorem holds_append
    : m.Holds a (xs ++ ys)
        ↔
      m.Holds a xs ∧ m.Holds (a + UInt32.ofNat (4 * xs.length)) ys := by
  induction xs generalizing a with
  | nil =>
    have hzero : a + UInt32.ofNat (4 * 0) = a := UInt32.add_zero a
    rw [List.nil_append, List.length_nil, hzero]
    exact ⟨fun h => ⟨trivial, h⟩, And.right⟩
  | cons x xs ih =>
    rw [List.cons_append, List.length_cons, word_succ]
    change m.load a = x ∧ m.Holds (a + 4) (xs ++ ys) ↔ (m.load a = x ∧ m.Holds (a + 4) xs) ∧ _
    rw [ih, and_assoc]

theorem Holds.drop (h : m.Holds a xs) (k : Nat)
    : m.Holds (a + UInt32.ofNat (4 * k)) (xs.drop k) := by
  induction k generalizing a xs with
  | zero =>
    rw [List.drop_zero]
    have hzero : a + UInt32.ofNat (4 * 0) = a := UInt32.add_zero a
    rw [hzero]
    exact h
  | succ k ih =>
    cases xs with
    | nil =>
      rw [List.drop_nil]
      trivial
    | cons x xs =>
      rw [List.drop_succ_cons]
      rw [word_succ]
      apply ih h.2

theorem Holds.congr {m' : Memory32} (h : m.Holds a xs) (hlength : 4 * xs.length ≤ 2 ^ 32)
    (hsame : ∀ b : UInt32, (b - a).toNat < 4 * xs.length → m' b = m b)
    : m'.Holds a xs := by
  induction xs generalizing a with
  | nil => trivial
  | cons x xs ih =>
    rw [List.length_cons] at hlength hsame
    have hbyte : ∀ k : UInt32, k.toNat < 4 → m' (a + k) = m (a + k) := by
      intro k hk
      apply hsame
      rw [UInt32.add_comm, UInt32.add_sub_cancel]
      omega
    constructor
    . have hzero := hbyte 0 (by decide)
      rw [UInt32.add_zero] at hzero
      rw [← h.1]
      unfold load
      rw [hzero, hbyte 1 (by decide), hbyte 2 (by decide), hbyte 3 (by decide)]
    . apply ih h.2 (by omega)
      intro b hb
      apply hsame
      have hfour : (4 : UInt32).toNat = 4 := rfl
      rw [UInt32.toNat_sub] at hb ⊢
      rw [UInt32.toNat_add, hfour] at hb
      have := b.toNat_lt
      have := a.toNat_lt
      omega

end Memory32
