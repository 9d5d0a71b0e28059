import Mathlib.Algebra.GroupWithZero.Nat
import Xposed.Libc

/-!
# Parcels

What the services rely on of the platform's `Parcel`: values come back in the
order they were written in, raw bytes are padded to words, and reading past the
end gives zeros. `Runs` is the triple for code that reads or writes a parcel.
-/

namespace Xposed.Binder

abbrev String16 := List UInt16

/-- A binder object; `NULL` is 0. -/
abbrev IBinder := Nat

inductive Kind where
  | int32
  | int64
  | string16
  | strongBinder
  | interfaceToken
  deriving DecidableEq

abbrev Kind.Value : Kind → Type
  | .int32 => Int32
  | .int64 => Int64
  | .string16 | .interfaceToken => String16
  | .strongBinder => IBinder

/-- What reading past the end gives. -/
def Kind.zero : (k : Kind) → k.Value
  | .int32 => (0 : Int32)
  | .int64 => (0 : Int64)
  | .string16 | .interfaceToken => ([] : String16)
  | .strongBinder => (0 : Nat)

inductive Item where
  | value (k : Kind) (v : k.Value)
  | raw (bytes : Bytes)

/-- The exception code that announces a longer header. -/
def EX_HAS_REPLY_HEADER : Int32 := -128

/-- What `write` makes of `n` bytes. -/
def padded (n : Nat) : Nat := (n + 3) / 4 * 4

/-- A parcel with its read position. -/
class Parcel (P : Type) where
  empty : P
  write : (k : Kind) → k.Value → P → P
  read : (k : Kind) → P → k.Value × P
  writeRaw : Bytes → P → P
  /-- `read` of that many bytes. -/
  readRaw : Nat → P → Bytes × P
  readExceptionCode : P → Int32 × P
  dataAvail : P → Nat
  /-- Behind the read position are just these items, in this order. -/
  Holds : P → List Item → Prop
  empty_holds : Holds empty []
  write_holds : ∀ k v p l, Holds p l → Holds (write k v p) (l ++ [.value k v])
  writeRaw_holds : ∀ bytes p l, Holds p l → Holds (writeRaw bytes p) (l ++ [.raw bytes])
  read_value : ∀ k v p l, Holds p (.value k v :: l) → (read k p).1 = v ∧ Holds (read k p).2 l
  read_end : ∀ k p, Holds p [] → (read k p).1 = k.zero ∧ Holds (read k p).2 []
  readRaw_bytes : ∀ bytes p l, Holds p (.raw bytes :: l) →
    (readRaw bytes.length p).1 = bytes ∧ Holds (readRaw bytes.length p).2 l
  exceptionCode_value : ∀ v p l, v ≠ EX_HAS_REPLY_HEADER → Holds p (.value .int32 v :: l) →
    (readExceptionCode p).1 = v ∧ Holds (readExceptionCode p).2 l
  exceptionCode_end : ∀ p, Holds p [] →
    (readExceptionCode p).1 = 0 ∧ Holds (readExceptionCode p).2 []
  dataAvail_raw : ∀ bytes p, Holds p [.raw bytes] → dataAvail p = padded bytes.length

section
variable {P : Type} [Parcel P]

def writeInt32 (v : Int32) : StateM P Unit := modify (Parcel.write .int32 v)
def writeInt64 (v : Int64) : StateM P Unit := modify (Parcel.write .int64 v)
def writeString16 (v : String16) : StateM P Unit := modify (Parcel.write .string16 v)
def writeStrongBinder (v : IBinder) : StateM P Unit := modify (Parcel.write .strongBinder v)
def writeInterfaceToken (v : String16) : StateM P Unit := modify (Parcel.write .interfaceToken v)
def writeNoException : StateM P Unit := writeInt32 0
def write (bytes : Bytes) : StateM P Unit := modify (Parcel.writeRaw bytes)

def readInt32 : StateM P Int32 := fun p => Parcel.read .int32 p
def readInt64 : StateM P Int64 := fun p => Parcel.read .int64 p
def readString16 : StateM P String16 := fun p => Parcel.read .string16 p
def readStrongBinder : StateM P IBinder := fun p => Parcel.read .strongBinder p
def readExceptionCode : StateM P Int32 := fun p => Parcel.readExceptionCode p
def read (n : Nat) : StateM P Bytes := fun p => Parcel.readRaw n p
def dataAvail : StateM P Nat := fun p => (Parcel.dataAvail p, p)

/-- `checkInterface`: the token in the parcel is the descriptor of the service. -/
def checkInterface (descriptor : String16) : StateM P Bool := fun p =>
  let (token, p) := Parcel.read .interfaceToken p
  (token == descriptor, p)

end

/-! ## Triples -/

/-- From a parcel that holds `l`, `m` returns `a` and leaves `l'`. -/
def Runs {P α : Type} [Parcel P] (m : StateM P α) (l : List Item) (a : α) (l' : List Item) : Prop :=
  ∀ p : P, Parcel.Holds p l → (m p).1 = a ∧ Parcel.Holds (m p).2 l'

/-- The same, whatever `m` leaves. -/
def Gives {P α : Type} [Parcel P] (m : StateM P α) (l : List Item) (a : α) : Prop :=
  ∀ p : P, Parcel.Holds p l → (m p).1 = a

theorem bind_apply {P α β : Type} (m : StateM P α) (f : α → StateM P β) (p : P) :
    (m >>= f) p = f (m p).1 (m p).2 := rfl

section
variable {P α β : Type} [Parcel P]

theorem Runs.pure (a : α) (l : List Item) : Runs (Pure.pure a : StateM P α) l a l :=
  fun _ h => ⟨rfl, h⟩

theorem Runs.bind {m : StateM P α} {f : α → StateM P β} {l l' l'' : List Item} {a : α} {b : β}
    (h : Runs m l a l') (next : Runs (f a) l' b l'') : Runs (m >>= f) l b l'' := by
  intro p hp
  obtain ⟨same, left⟩ := h p hp
  rw [bind_apply, same]
  exact next _ left

/-- The last step of code whose parcel is not used any further. -/
theorem Runs.gives {m : StateM P α} {f : α → StateM P β} {l l' : List Item} {a : α} {b : β}
    (h : Runs m l a l') (next : Gives (f a) l' b) : Gives (m >>= f) l b := by
  intro p hp
  obtain ⟨same, left⟩ := h p hp
  rw [bind_apply, same]
  exact next _ left

theorem Gives.pure (a : α) (l : List Item) : Gives (Pure.pure a : StateM P α) l a := fun _ _ => rfl

theorem Gives.bind {m : StateM P α} {f : α → β} {l : List Item} {a : α} (h : Gives m l a) :
    Gives (m >>= fun x => Pure.pure (f x)) l (f a) := by
  intro p hp
  rw [bind_apply, h p hp]
  rfl

theorem Runs.read_value {k : Kind} (v : k.Value) (l : List Item) :
    Runs (fun p : P => Parcel.read k p) (.value k v :: l) v l :=
  fun p h => Parcel.read_value k v p l h

theorem Runs.read_end (k : Kind) : Runs (fun p : P => Parcel.read k p) [] k.zero [] :=
  fun p h => Parcel.read_end k p h

theorem Runs.write_value {k : Kind} (v : k.Value) (l : List Item) :
    Runs (modify (Parcel.write k v) : StateM P PUnit) l ⟨⟩ (l ++ [.value k v]) :=
  fun p h => ⟨rfl, Parcel.write_holds k v p l h⟩

theorem Runs.write_raw (bytes : Bytes) (l : List Item) :
    Runs (write bytes : StateM P Unit) l () (l ++ [.raw bytes]) :=
  fun p h => ⟨rfl, Parcel.writeRaw_holds bytes p l h⟩

theorem Runs.read_raw (bytes : Bytes) (l : List Item) :
    Runs (read bytes.length : StateM P Bytes) (.raw bytes :: l) bytes l :=
  fun p h => Parcel.readRaw_bytes bytes p l h

theorem Runs.exceptionCode {v : Int32} (plain : v ≠ EX_HAS_REPLY_HEADER) (l : List Item) :
    Runs (readExceptionCode : StateM P Int32) (.value .int32 v :: l) v l :=
  fun p h => Parcel.exceptionCode_value v p l plain h

theorem Runs.exceptionCode_end : Runs (readExceptionCode : StateM P Int32) [] 0 [] :=
  fun p h => Parcel.exceptionCode_end p h

theorem Runs.dataAvail_raw (bytes : Bytes) :
    Runs (dataAvail : StateM P Nat) [.raw bytes] (padded bytes.length) [.raw bytes] :=
  fun p h => ⟨Parcel.dataAvail_raw bytes p h, h⟩

theorem Runs.checkInterface (token descriptor : String16) (l : List Item) :
    Runs (checkInterface descriptor : StateM P Bool) (.value .interfaceToken token :: l)
      (token == descriptor) l := by
  intro p h
  obtain ⟨same, left⟩ := Parcel.read_value .interfaceToken token p l h
  exact ⟨by rw [← same]; rfl, left⟩

end

/-! ## A parcel that keeps its items -/

/-- A value of kind `k`, or zero where there is none. -/
def Item.as (k : Kind) : Item → k.Value
  | .value j v => if h : j = k then h ▸ v else k.zero
  | .raw _ => k.zero

@[simp] theorem Item.as_value (k : Kind) (v : k.Value) : Item.as k (.value k v) = v := by
  simp [Item.as]

def Item.size : Item → Nat
  | .raw bytes => padded bytes.length
  | .value _ _ => 4

def itemRead (k : Kind) : List Item → k.Value × List Item
  | [] => (k.zero, [])
  | i :: l => (i.as k, l)

/-- `List Item` as a parcel. A reply header is one more item. -/
instance : Parcel (List Item) where
  empty := []
  write k v p := p ++ [.value k v]
  read := itemRead
  writeRaw bytes p := p ++ [.raw bytes]
  readRaw n
    | .raw bytes :: l => (bytes.take n, l)
    | p => ([], p)
  readExceptionCode p :=
    let (v, p) := itemRead .int32 p
    if v = EX_HAS_REPLY_HEADER then (0, p.tail) else (v, p)
  dataAvail p := (p.map Item.size).sum
  Holds p l := p = l
  empty_holds := rfl
  write_holds _ _ _ _ h := by rw [h]
  writeRaw_holds _ _ _ h := by rw [h]
  read_value k v p l h := by
    subst h
    exact ⟨Item.as_value k v, rfl⟩
  read_end k p h := by
    subst h
    exact ⟨rfl, rfl⟩
  readRaw_bytes bytes p l h := by
    subst h
    exact ⟨List.take_length, rfl⟩
  exceptionCode_value v p l plain h := by
    subst h
    have same : itemRead .int32 (.value .int32 v :: l) = (v, l) := by
      simp only [itemRead, Item.as_value]
    simp [same, plain]
  exceptionCode_end p h := by
    subst h
    exact ⟨rfl, rfl⟩
  dataAvail_raw bytes p h := by
    subst h
    simp [Item.size]

end Xposed.Binder
