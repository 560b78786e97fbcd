/-
# Counted items

Items behind their number, names, and numbers of fixed width.  The check of a
count against the bytes left is the one step of a decoder that looks at bytes it
does not take; it never refuses items that are there, because none of them is
empty.
-/

import WasmMachine.Proofs.Binary.Leb128

namespace WasmMachine

namespace Decoder

open Leb128

variable {α : Type}

/-- The bytes are the number of the items and then one part for each item. -/
structure Counted (P : List UInt8 → α → Prop) (bytes : List UInt8) (as : List α) : Prop where
  few : as.length < 2 ^ 32
  split : ∃ head body, bytes = head ++ body ∧ Unsigned head (UInt32.ofNat as.length) ∧
    Parts P body as

namespace Counted

variable {P : List UInt8 → α → Prop} {bytes : List UInt8} {as : List α}

theorem forall_mem (counted : Counted P bytes as) : ∀ a ∈ as, ∃ part, P part a := by
  obtain ⟨_, _, _, _, parts⟩ := counted.split
  exact parts.forall_mem

theorem length_vector_le {item : α → List UInt8}
    (shorter : ∀ part a, P part a → (item a).length ≤ part.length)
    (counted : Counted P bytes as) : (Encode.vector item as).length ≤ bytes.length := by
  obtain ⟨head, body, rfl, number, parts⟩ := counted.split
  have front := Encode.length_u32_le number
  have back := parts.length_flatMap_le shorter
  simp only [Encode.vector, Encode.length, List.length_append]
  omega

end Counted

/-- Items that are written one by one are written as parts, of the items
themselves or of what they are read back as. -/
theorem Parts.flatMap_map {β : Type} {P : List UInt8 → β → Prop} {item : α → List UInt8}
    {back : α → β} {as : List α} (holds : ∀ a ∈ as, P (item a) (back a)) :
    Parts P (as.flatMap item) (as.map back) := by
  induction as with
  | nil => exact .nil
  | cons a as ih =>
      exact .cons (holds a List.mem_cons_self)
        (ih fun x mem => holds x (List.mem_cons_of_mem a mem))

theorem Parts.flatMap {P : List UInt8 → α → Prop} {item : α → List UInt8} {as : List α}
    (holds : ∀ a ∈ as, P (item a) a) : Parts P (as.flatMap item) as := by
  rw [← List.map_id as, List.flatMap_map]
  exact Parts.flatMap_map holds

theorem counted_vector {P : List UInt8 → α → Prop} {item : α → List UInt8} {as : List α}
    (few : as.length < 2 ^ 32) (holds : ∀ a ∈ as, P (item a) a) :
    Counted P (Encode.vector item as) as :=
  ⟨few, _, _, rfl, Encode.unsigned_u32 _, Parts.flatMap holds⟩

theorem Parts.length_le {P : List UInt8 → α → Prop} {bytes : List UInt8} {as : List α}
    (some : ∀ part a, P part a → part ≠ []) (parts : Parts P bytes as) :
    as.length ≤ bytes.length := by
  induction parts with
  | nil => simp
  | cons holds _ ih =>
      have := List.length_pos_iff.mpr (some _ _ holds)
      simp only [List.length_cons, List.length_append]
      omega

/-- None of the items behind a count is longer than all of them. -/
theorem length_le_vector {item : α → List UInt8} {as : List α} {a : α} (mem : a ∈ as) :
    (item a).length ≤ (Encode.vector item as).length := by
  obtain ⟨before, behind, rfl⟩ := List.append_of_mem mem
  simp only [Encode.vector, List.flatMap_append, List.flatMap_cons, List.length_append]
  omega

/-- There are no more items than bytes, where none of them is empty. -/
theorem count_le_vector {item : α → List UInt8} (some : ∀ a, item a ≠ []) (as : List α) :
    as.length ≤ (Encode.vector item as).length := by
  have parts : Parts (fun part a => part = item a) (as.flatMap item) as :=
    Parts.flatMap fun _ _ => rfl
  have enough : as.length ≤ (as.flatMap item).length := parts.length_le fun _ a equal => by
    rw [equal]
    exact some a
  rw [Encode.vector, List.length_append]
  omega

/-- A count is not refused as long as what follows it has a byte for each item. -/
theorem Reads.checked (early : Bool) {fails : UInt32 → Nat → Decoder α}
    {next : UInt32 → Decoder α} {head body : List UInt8} {n : UInt32} {a : α}
    (number : Unsigned head n) (enough : n.toNat ≤ body.length) (reads : Reads (next n) body a) :
    Reads (do
      let n ← Decoder.u32
      let bytes ← Decoder.left
      if early && bytes < n.toNat then fails n bytes else next n) (head ++ body) a := by
  intro position rest
  have room : ¬ (early && decide ((body ++ rest).length < n.toNat)) = true := by
    rw [List.length_append]
    simp
    omega
  rw [List.append_assoc, bind_eq_ok_iff]
  refine ⟨n, _, Reads.u32 number position (body ++ rest), ?_⟩
  rw [bind_eq_ok_iff]
  refine ⟨_, _, rfl, ?_⟩
  rw [Reader.left, if_neg room, reads, List.length_append, Nat.add_assoc]

/-- The check of a count stands in front of whatever follows it. -/
theorem count_bind (early : Bool) (next : UInt32 → Decoder α) :
    (Decoder.count early >>= next) = (do
      let n ← u32
      let bytes ← left
      if early && bytes < n.toNat then failIn "vector" (.count n bytes)
      else next n) := by
  simp only [Decoder.count, bind_assoc, failIn_bind]
  congr
  funext n
  congr
  funext bytes
  split
  · rfl
  · rfl

/-- A number in front of its items passes the check of the count: each item takes a
byte at least. -/
theorem Reads.vector {P : List UInt8 → α → Prop} {item : Nat → Decoder α} (early : Bool)
    (reads : ∀ i part a, P part a → Reads (item i) part a)
    (some : ∀ part a, P part a → part ≠ []) {bytes : List UInt8} {as : List α}
    (counted : Counted P bytes as) : Reads (Decoder.vector early item) bytes as := by
  obtain ⟨few, head, body, rfl, number, parts⟩ := counted
  have length : (UInt32.ofNat as.length).toNat = as.length := UInt32.toNat_ofNat_of_lt' few
  have enough := parts.length_le some
  rw [Decoder.vector, count_bind]
  refine Reads.checked early number (by omega) ?_
  rw [length]
  exact Reads.items reads parts

/-- Past the check of a count its bytes are known. -/
theorem Yields.checked (early : Bool)
    {fails : UInt32 → Nat → Decoder α} {next : UInt32 → Decoder α} {P : List UInt8 → α → Prop}
    (never : ∀ n bytes, Yields (fails n bytes) fun _ _ => False)
    (yields : ∀ head n, Unsigned head n → Yields (next n) fun body a => P (head ++ body) a) :
    Yields (do
      let n ← Decoder.u32
      let bytes ← Decoder.left
      if early && bytes < n.toNat then fails n bytes else next n) P := by
  refine Yields.bind Yields.u32 fun head n number => ?_
  refine Yields.bind Yields.left fun none bytes taken => ?_
  subst taken
  refine Yields.ite (fun _ => (never n bytes).mono fun _ _ impossible => impossible.elim)
    fun _ => ?_
  exact yields head n number

/-- Whatever is read as a vector is the number of the items and their parts. -/
theorem Yields.vector {P : List UInt8 → α → Prop} {item : Nat → Decoder α} (early : Bool)
    (yields : ∀ i, Yields (item i) P) :
    Yields (Decoder.vector early item) (Counted P) := by
  rw [Decoder.vector, count_bind]
  refine Yields.checked early (fun _ _ => Yields.failIn _ _) fun head n number => ?_
  refine (Yields.items yields n.toNat).mono fun body as found => ?_
  obtain ⟨length, parts⟩ := found
  have back : UInt32.ofNat as.length = n := by rw [length, UInt32.ofNat_toNat]
  exact ⟨length ▸ n.toNat_lt, head, body, rfl, back ▸ number, parts⟩

/-! ## Numbers of fixed width -/

theorem littleEndian_encode (k n : Nat) :
    littleEndian (Encode.littleEndian k n) = n % 256 ^ k := by
  induction k generalizing n with
  | zero => simp [Encode.littleEndian, littleEndian, Nat.mod_one]
  | succ k ih =>
      simp only [Encode.littleEndian, littleEndian]
      rw [ih, UInt8.toNat_ofNat_of_lt' (Nat.mod_lt n (by decide)), Nat.pow_succ', Nat.mod_mul]

theorem length_littleEndian (k n : Nat) : (Encode.littleEndian k n).length = k := by
  induction k generalizing n with
  | zero => rfl
  | succ k ih => simp [Encode.littleEndian, ih]

/-- Bytes come back from the number that they are read as. -/
theorem encode_littleEndian (bs : List UInt8) :
    Encode.littleEndian bs.length (littleEndian bs) = bs := by
  induction bs with
  | nil => rfl
  | cons b bs ih =>
      have digit : (b.toNat + 256 * littleEndian bs) % 256 = b.toNat := by
        rw [Nat.add_mul_mod_self_left, Nat.mod_eq_of_lt b.toNat_lt]
      have rest : (b.toNat + 256 * littleEndian bs) / 256 = littleEndian bs := by
        rw [Nat.add_mul_div_left _ _ (by decide), Nat.div_eq_of_lt b.toNat_lt, Nat.zero_add]
      rw [List.length_cons, littleEndian, Encode.littleEndian, digit, rest, ih, UInt8.ofNat_toNat]

theorem littleEndian_lt (bs : List UInt8) : littleEndian bs < 256 ^ bs.length := by
  induction bs with
  | nil => decide
  | cons b bs ih =>
      have digit := b.toNat_lt
      rw [littleEndian, List.length_cons, Nat.pow_succ]
      omega

/-- Any four bytes are read as a number. -/
theorem Reads.u32le {bs : List UInt8} (four : bs.length = 4) :
    Reads Decoder.u32le bs (UInt32.ofNat (littleEndian bs)) := by
  have reads := Reads.bytes bs
  rw [four] at reads
  exact Reads.bind_pure reads rfl

/-- Any eight bytes are read as a number. -/
theorem Reads.u64le {bs : List UInt8} (eight : bs.length = 8) :
    Reads Decoder.u64le bs (UInt64.ofNat (littleEndian bs)) := by
  have reads := Reads.bytes bs
  rw [eight] at reads
  exact Reads.bind_pure reads rfl

theorem Yields.u32le : Yields Decoder.u32le fun bs n =>
    bs.length = 4 ∧ n = UInt32.ofNat (littleEndian bs) := by
  refine Yields.bind (Yields.bytes 4) fun bs read found => Yields.pure ?_
  obtain ⟨rfl, four⟩ := found
  rw [List.append_nil]
  exact ⟨four, rfl⟩

theorem Yields.u64le : Yields Decoder.u64le fun bs n =>
    bs.length = 8 ∧ n = UInt64.ofNat (littleEndian bs) := by
  refine Yields.bind (Yields.bytes 8) fun bs read found => Yields.pure ?_
  obtain ⟨rfl, eight⟩ := found
  rw [List.append_nil]
  exact ⟨eight, rfl⟩

/-- A number comes back from the bytes it is written in. -/
theorem littleEndian_u32le (n : UInt32) : UInt32.ofNat (littleEndian (Encode.u32le n)) = n := by
  have fits : n.toNat < 256 ^ 4 := n.toNat_lt
  rw [Encode.u32le, littleEndian_encode, Nat.mod_eq_of_lt fits, UInt32.ofNat_toNat]

/-- Four bytes are the ones of the number that they are read as. -/
theorem u32le_littleEndian {bs : List UInt8} (four : bs.length = 4) :
    Encode.u32le (UInt32.ofNat (littleEndian bs)) = bs := by
  have fits : littleEndian bs < UInt32.size := by
    have below := littleEndian_lt bs
    rwa [four] at below
  have back := encode_littleEndian bs
  rwa [Encode.u32le, UInt32.toNat_ofNat_of_lt' fits, ← four]

theorem littleEndian_u64le (n : UInt64) : UInt64.ofNat (littleEndian (Encode.u64le n)) = n := by
  have fits : n.toNat < 256 ^ 8 := n.toNat_lt
  rw [Encode.u64le, littleEndian_encode, Nat.mod_eq_of_lt fits, UInt64.ofNat_toNat]

/-! ## Names -/

private theorem toList_loop (text : ByteArray) (i : Nat) (done : List UInt8) :
    ByteArray.toList.loop text i done = done.reverse ++ text.data.toList.drop i := by
  induction i, done using ByteArray.toList.loop.induct text with
  | case1 i done inside ih =>
      have byte : text.get! i = text.data.toList.get ⟨i, inside⟩ := getElem!_pos text.data i inside
      rw [ByteArray.toList.loop, if_pos inside, ih, List.reverse_cons, List.append_assoc, byte,
        List.drop_eq_getElem_cons (show i < text.data.toList.length from inside)]
      rfl
  | case2 i done outside =>
      have none : text.data.toList.drop i = [] :=
        List.drop_eq_nil_of_le (Nat.not_lt.mp outside)
      rw [ByteArray.toList.loop, if_neg outside, none, List.append_nil]

/-- The bytes of a byte array are those of its array. -/
private theorem toList_eq (text : ByteArray) : text.toList = text.data.toList := by
  rw [ByteArray.toList, toList_loop]
  rfl

/-- The bytes are the length of a text in bytes and the text. -/
structure Named (bytes : List UInt8) (s : String) : Prop where
  few : s.toUTF8.toList.length < 2 ^ 32
  split : ∃ head, bytes = head ++ s.toUTF8.toList ∧
    Unsigned head (UInt32.ofNat s.toUTF8.toList.length)

theorem named_name {s : String} (few : s.toUTF8.toList.length < 2 ^ 32) :
    Named (Encode.name s) s :=
  ⟨few, _, rfl, Encode.unsigned_u32 _⟩

theorem Named.length_name_le {bytes : List UInt8} {s : String} (named : Named bytes s) :
    (Encode.name s).length ≤ bytes.length := by
  obtain ⟨-, head, rfl, number⟩ := named
  have front := Encode.length_u32_le number
  simp only [Encode.name, Encode.length, List.length_append]
  omega

theorem Reads.name {bytes : List UInt8} {s : String} (named : Named bytes s) :
    Reads Decoder.name bytes s := by
  obtain ⟨few, head, rfl, number⟩ := named
  have length : (UInt32.ofNat s.toUTF8.toList.length).toNat = s.toUTF8.toList.length :=
    UInt32.toNat_ofNat_of_lt' few
  have text := Reads.bytes s.toUTF8.toList
  rw [← length] at text
  refine Reads.bind (Reads.u32 number) (Reads.bind_pure text ?_)
  have back : ByteArray.mk s.toUTF8.toList.toArray = s.toByteArray := by
    rw [toList_eq]
    rfl
  rw [back, String.fromUTF8?, dif_pos s.isValidUTF8]
  rfl

theorem Yields.name : Yields Decoder.name Named := by
  refine Yields.bind Yields.u32 fun head n number => ?_
  refine Yields.bind (Yields.bytes n.toNat) fun text read found => ?_
  obtain ⟨rfl, length⟩ := found
  split
  · next s found =>
      have back : s.toUTF8.toList = text := by
        unfold String.fromUTF8? at found
        split at found
        · cases found
          rw [toList_eq]
          rfl
        · cases found
      have same : UInt32.ofNat text.length = n := by rw [length, UInt32.ofNat_toNat]
      refine Yields.pure ⟨?_, head, ?_, ?_⟩
      · rw [back, length]
        exact n.toNat_lt
      · rw [back, List.append_nil]
      · rw [back, same]
        exact number
  · exact Yields.failHere .invalidUtf8

end Decoder

end WasmMachine
