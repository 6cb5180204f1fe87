import TouchMouse.Model.ReportDescriptor
import TouchMouse.Stream.Reader
import Mathlib.Data.Nat.Digits.Defs

/-!
# What a report descriptor says of the usage

`get_usage` reads inside of the bytes it is given, whatever they are. A
descriptor is a list of items, and of one that is whole the code reads the
items up to the first that leaves neither kind to be found. The result is the
last usage page and the last usage up to there, so not the first of its kind
where that kind comes again before the other one.
-/

namespace TouchMouse.Linux

/-! ## Any bytes -/

theorem getBytes_isSome (rpt : List UInt8) (numBytes cur : Nat) : ∃ b, getBytes rpt numBytes cur = some b := by
  rw [getBytes]
  split
  · exact ⟨0, rfl⟩
  · rename_i hinside
    split
    · exact ⟨0, rfl⟩
    · split
      · simp [List.getElem?_eq_getElem (by omega : cur + 1 < rpt.length)]
      · split
        · simp [List.getElem?_eq_getElem (by omega : cur + 1 < rpt.length),
            List.getElem?_eq_getElem (by omega : cur + 2 < rpt.length)]
        · split
          · simp [List.getElem?_eq_getElem (by omega : cur + 1 < rpt.length),
              List.getElem?_eq_getElem (by omega : cur + 2 < rpt.length),
              List.getElem?_eq_getElem (by omega : cur + 3 < rpt.length),
              List.getElem?_eq_getElem (by omega : cur + 4 < rpt.length)]
          · exact ⟨0, rfl⟩

theorem itemSize_isSome (rpt : List UInt8) (i : Nat) (key : UInt8) :
    ∃ dataLen keySize, itemSize rpt i key = some (dataLen, keySize) ∧ 0 < keySize := by
  rw [itemSize]
  split
  · split
    · rename_i hlong hinside
      exact ⟨_, 3, by rw [List.getElem?_eq_getElem hinside]; rfl, by decide⟩
    · exact ⟨0, 3, rfl, by decide⟩
  · exact ⟨_, 1, rfl, by decide⟩

/-- A turn at a byte of the descriptor goes on by one byte at least. -/
theorem readItem_isSome {rpt : List UInt8} {i : Nat} (u : Usage) (hi : i < rpt.length) :
    ∃ size u', readItem rpt i u = some (size, u') ∧ 0 < size := by
  obtain ⟨dataLen, keySize, hsize, hpos⟩ := itemSize_isSome rpt i rpt[i]
  obtain ⟨b, hb⟩ := getBytes_isSome rpt dataLen i
  have hwhole : ∃ u', readItem rpt i u = some (dataLen + keySize, u') := by
    simp only [readItem, List.getElem?_eq_getElem hi, hsize, hb, Option.bind_eq_bind, Option.bind_some, Option.map_some]
    split <;> split <;> exact ⟨_, rfl⟩
  obtain ⟨u', hu'⟩ := hwhole
  exact ⟨_, u', hu', by omega⟩

theorem getUsageLoop_isSome (rpt : List UInt8) (n i : Nat) (u : Usage) (hn : rpt.length - i < n)
    (hu : (u.usagePageFound && u.usageFound) = false) :
    ∃ r u', getUsageLoop rpt n i u = some (r, u') ∧
      (r = 0 ∧ (u'.usagePageFound && u'.usageFound) ∨ r = -1 ∧ (u'.usagePageFound && u'.usageFound) = false) := by
  induction n generalizing i u with
  | zero => exact absurd hn (Nat.not_lt_zero _)
  | succ n ih =>
    rw [getUsageLoop]
    by_cases hi : i < rpt.length
    · obtain ⟨size, u', hread, hpos⟩ := readItem_isSome u hi
      simp only [if_pos hi, hread, Option.bind_eq_bind, Option.bind_some]
      by_cases hboth : (u'.usagePageFound && u'.usageFound) = true
      · exact ⟨0, u', if_pos hboth, .inl ⟨rfl, hboth⟩⟩
      · obtain ⟨r, v, hrun, hv⟩ := ih (i + size) u' (by omega) (eq_false_of_ne_true hboth)
        exact ⟨r, v, by rw [if_neg hboth, hrun], hv⟩
    · exact ⟨-1, u, by rw [if_neg hi], .inr ⟨rfl, hu⟩⟩

/-- **A report descriptor is read inside of its bytes.** Whatever a device
sends, no turn reads outside of it and the loop ends, with success exactly
where a usage page and a usage were found. -/
theorem get_usage_inside (rpt : List UInt8) :
    ∃ r u, getUsage rpt = some (r, u) ∧
      (r = 0 ∧ (u.usagePageFound && u.usageFound) ∨ r = -1 ∧ (u.usagePageFound && u.usageFound) = false) :=
  getUsageLoop_isSome rpt _ 0 _ (by omega) rfl

/-! ## Items -/

/-- An item of a report descriptor, short or long as the code tells them apart:
long are all that have 15 in the high half of the key. By the specification only
0xFE is, and the other keys of this kind are reserved. -/
inductive DescriptorItem where
  | short (key : UInt8) (data : List UInt8) (isShort : key &&& 0xf0 ≠ 0xf0) (size : data.length = shortDataLen key)
  | long (key tag : UInt8) (data : List UInt8) (isLong : key &&& 0xf0 = 0xf0) (size : data.length < 256)

namespace DescriptorItem

def key : DescriptorItem → UInt8
  | short key .. => key
  | long key .. => key

def data : DescriptorItem → List UInt8
  | short _ data .. => data
  | long _ _ data .. => data

/-- The bytes of an item: a long one has the length of its data and its own tag
after the key. -/
def bytes : DescriptorItem → List UInt8
  | short key data .. => key :: data
  | long key tag data .. => key :: UInt8.ofNat data.length :: tag :: data

/-- The data as a number, of 16 bits. -/
def value (item : DescriptorItem) : UInt16 := UInt16.ofNat (Nat.ofDigits 256 (item.data.map UInt8.toNat))

def page? (item : DescriptorItem) : Option UInt16 := if item.key &&& 0xfc = 0x4 then some item.value else none

def usage? (item : DescriptorItem) : Option UInt16 := if item.key &&& 0xfc = 0x8 then some item.value else none

end DescriptorItem

/-- The bytes of a report descriptor. -/
def encode (items : List DescriptorItem) : List UInt8 := items.flatMap DescriptorItem.bytes

/-- The last usage page and the last usage of some items. -/
def lastUsage (items : List DescriptorItem) : Usage where
  usagePage := (items.filterMap DescriptorItem.page?).getLastD 0
  usage := (items.filterMap DescriptorItem.usage?).getLastD 0
  usagePageFound := !(items.filterMap DescriptorItem.page?).isEmpty
  usageFound := !(items.filterMap DescriptorItem.usage?).isEmpty

/-- Some item gives a usage page and some item gives a usage. -/
def HasUsage (items : List DescriptorItem) : Prop :=
  (∃ item ∈ items, item.page?.isSome) ∧ ∃ item ∈ items, item.usage?.isSome

/-- What an item adds to what was found. -/
def Usage.after (u : Usage) (item : DescriptorItem) : Usage where
  usagePage := item.page?.getD u.usagePage
  usage := item.usage?.getD u.usage
  usagePageFound := u.usagePageFound || item.page?.isSome
  usageFound := u.usageFound || item.usage?.isSome

theorem lastUsage_snoc (items : List DescriptorItem) (item : DescriptorItem) :
    lastUsage (items ++ [item]) = (lastUsage items).after item := by
  cases hpage : item.page? <;> cases husage : item.usage? <;>
    simp [lastUsage, Usage.after, List.filterMap_append, hpage, husage]

theorem both_found_iff (items : List DescriptorItem) :
    ((lastUsage items).usagePageFound && (lastUsage items).usageFound) = true ↔ HasUsage items := by
  simp [lastUsage, HasUsage, List.filterMap_eq_nil_iff, Option.isSome_iff_ne_none]

/-! ## Reading items -/

theorem toUInt16_getBytes {a b c d : UInt8} :
    (d.toUInt32 * 0x01000000 + c.toUInt32 * 0x00010000 + b.toUInt32 * 0x00000100 + a.toUInt32).toUInt16 =
      UInt16.ofNat (Nat.ofDigits 256 ([a, b, c, d].map UInt8.toNat)) := by
  apply UInt16.toNat_inj.1
  have ha := a.toNat_lt
  have hb := b.toNat_lt
  have hc := c.toNat_lt
  have hd := d.toNat_lt
  simp [Nat.ofDigits_cons]
  omega

theorem shortDataLen_cases (key : UInt8) :
    shortDataLen key = 0 ∨ shortDataLen key = 1 ∨ shortDataLen key = 2 ∨ shortDataLen key = 4 := by
  have hsize : (key &&& 0x3).toNat ≤ 3 := by
    rw [UInt8.toNat_and]
    exact Nat.and_le_right
  rw [shortDataLen]
  split
  · exact .inr (.inr (.inr rfl))
  · rename_i hthree
    have hne : (key &&& 0x3).toNat ≠ 3 := fun h => hthree (UInt8.toNat_inj.1 h)
    omega

/-- The data of a short item are read as their value. -/
theorem getBytes_value (front rest : List UInt8) (key : UInt8) (data : List UInt8)
    (hlen : data.length = shortDataLen key) :
    (getBytes (front ++ (key :: data ++ rest)) data.length front.length).map (·.toUInt16) =
      some (UInt16.ofNat (Nat.ofDigits 256 (data.map UInt8.toNat))) := by
  have hat : ∀ k, (front ++ (key :: data ++ rest))[front.length + k]? = (key :: data ++ rest)[k]? := by
    intro k
    rw [List.getElem?_append_right (by omega), Nat.add_sub_cancel_left]
  have hinside : ¬ front.length + data.length ≥ (front ++ (key :: data ++ rest)).length := by
    simp only [List.length_append, List.length_cons]
    omega
  rw [getBytes, if_neg hinside]
  simp only [hat]
  match data, hlen ▸ shortDataLen_cases key with
  | [], _ => rfl
  | [a], _ =>
    simp [Nat.ofDigits_cons]
  | [a, b], _ =>
    refine congrArg some (UInt16.toNat_inj.1 ?_)
    simp [Nat.ofDigits_cons]
    omega
  | [a, b, c, d], _ => exact congrArg some toUInt16_getBytes

/-- A key that says a usage page or a usage is that of a short item. -/
theorem isShort_of_key {key cmd : UInt8} (hkey : key &&& 0xfc = cmd) (hcmd : cmd &&& 0xf0 ≠ 0xf0) : key &&& 0xf0 ≠ 0xf0 := by
  intro hlong
  apply hcmd
  rw [← hkey, UInt8.and_assoc]
  exact hlong

/-- A turn at an item takes it whole and finds what it says. -/
theorem readItem_item (front rest : List UInt8) (item : DescriptorItem) (u : Usage) :
    readItem (front ++ (item.bytes ++ rest)) front.length u = some (item.bytes.length, u.after item) := by
  have hkey : (front ++ (item.bytes ++ rest))[front.length]? = some item.key := by
    rw [List.getElem?_append_right (le_refl _), Nat.sub_self]
    cases item <;> rfl
  cases item with
  | short key data isShort size =>
    have hsize : itemSize (front ++ ((DescriptorItem.short key data isShort size).bytes ++ rest)) front.length key =
        some (data.length, 1) := by
      rw [itemSize, if_neg isShort, size]
    obtain ⟨b, hb, hvalue⟩ := Option.map_eq_some_iff.1 (getBytes_value front rest key data size)
    have hread : getBytes (front ++ ((DescriptorItem.short key data isShort size).bytes ++ rest)) data.length front.length =
        some b := hb
    rw [readItem, hkey]
    simp only [DescriptorItem.key, hsize, hread, Option.bind_eq_bind, Option.bind_some, Option.map_some, hvalue]
    by_cases hpage : key &&& 0xfc = 0x4
    · simp [hpage, Usage.after, DescriptorItem.page?, DescriptorItem.usage?, DescriptorItem.value, DescriptorItem.key,
        DescriptorItem.data, DescriptorItem.bytes]
    · by_cases husage : key &&& 0xfc = 0x8 <;>
        simp [hpage, husage, Usage.after, DescriptorItem.page?, DescriptorItem.usage?, DescriptorItem.value,
          DescriptorItem.key, DescriptorItem.data, DescriptorItem.bytes]
  | long key tag data isLong size =>
    have hpage : key &&& 0xfc ≠ 0x4 := fun h => isShort_of_key h (by decide) isLong
    have husage : key &&& 0xfc ≠ 0x8 := fun h => isShort_of_key h (by decide) isLong
    have hsize : itemSize (front ++ ((DescriptorItem.long key tag data isLong size).bytes ++ rest)) front.length key =
        some (data.length, 3) := by
      have hlength : front.length + 1 < (front ++ (key :: UInt8.ofNat data.length :: tag :: data ++ rest)).length := by
        simp only [List.length_append, List.length_cons]
        omega
      rw [itemSize, if_pos isLong, DescriptorItem.bytes, if_pos hlength, List.getElem?_append_right (by omega),
        Nat.add_sub_cancel_left]
      simp [Nat.mod_eq_of_lt size]
    rw [readItem, hkey]
    simp only [DescriptorItem.key, hsize, Option.bind_eq_bind, Option.bind_some, if_neg hpage, if_neg husage]
    simp [hpage, husage, Usage.after, DescriptorItem.page?, DescriptorItem.usage?, DescriptorItem.key,
      DescriptorItem.bytes]

instance (items : List DescriptorItem) : Decidable (HasUsage items) := decidable_of_iff _ (both_found_iff items)

theorem encode_append (items items' : List DescriptorItem) : encode (items ++ items') = encode items ++ encode items' :=
  List.flatMap_append

theorem HasUsage.append_right {items : List DescriptorItem} (items' : List DescriptorItem) (h : HasUsage items) :
    HasUsage (items ++ items') := by
  obtain ⟨⟨page, hpage, hp⟩, usage, husage, hu⟩ := h
  exact ⟨⟨page, List.mem_append_left _ hpage, hp⟩, usage, List.mem_append_left _ husage, hu⟩

/-- A turn of the loop, after the items `read`. -/
theorem getUsageLoop_item (read rest : List DescriptorItem) (item : DescriptorItem) (n : Nat) :
    getUsageLoop (encode (read ++ item :: rest)) (n + 1) (encode read).length (lastUsage read) =
      if HasUsage (read ++ [item]) then some (0, lastUsage (read ++ [item]))
      else getUsageLoop (encode (read ++ item :: rest)) n (encode (read ++ [item])).length (lastUsage (read ++ [item])) := by
  have hbytes : encode (read ++ item :: rest) = encode read ++ (item.bytes ++ encode rest) := encode_append _ _
  have hlength : (encode (read ++ [item])).length = (encode read).length + item.bytes.length := by
    simp [encode]
  have hinside : (encode read).length < (encode (read ++ item :: rest)).length := by
    have hpos : 0 < item.bytes.length := by cases item <;> exact Nat.succ_pos _
    simp only [hbytes, List.length_append]
    omega
  have hread := readItem_item (encode read) (encode rest) item (lastUsage read)
  rw [← hbytes, ← lastUsage_snoc] at hread
  simp only [getUsageLoop, if_pos hinside, hread, Option.bind_eq_bind, Option.bind_some, hlength]
  by_cases hboth : HasUsage (read ++ [item])
  · rw [if_pos hboth, if_pos ((both_found_iff _).2 hboth)]
  · rw [if_neg hboth, if_neg (mt (both_found_iff _).1 hboth)]

/-- Up to the item that completes the two kinds. -/
theorem getUsageLoop_found (read more rest : List DescriptorItem) (item : DescriptorItem) (n : Nat)
    (hbefore : ¬ HasUsage (read ++ more)) (hfound : HasUsage (read ++ more ++ [item])) (hn : more.length < n) :
    getUsageLoop (encode (read ++ more ++ item :: rest)) n (encode read).length (lastUsage read) =
      some (0, lastUsage (read ++ more ++ [item])) := by
  induction more generalizing read n with
  | nil =>
    obtain ⟨n, rfl⟩ := Nat.exists_eq_add_of_lt hn
    rw [List.append_nil] at hfound ⊢
    rw [show [].length + n + 1 = n + 1 by simp, getUsageLoop_item, if_pos hfound]
  | cons next more ih =>
    obtain ⟨n, rfl⟩ := Nat.exists_eq_add_of_lt hn
    have hsplit : read ++ next :: more = read ++ [next] ++ more := by simp
    rw [hsplit] at hbefore hfound ⊢
    have hnot : ¬ HasUsage (read ++ [next]) := mt (HasUsage.append_right more) hbefore
    have hwhole : read ++ [next] ++ more ++ item :: rest = read ++ next :: (more ++ item :: rest) := by simp
    rw [hwhole, getUsageLoop_item, if_neg hnot, ← hwhole]
    exact ih _ _ hbefore hfound (by simp only [List.length_cons]; omega)

/-- Over all the items, where a kind is missing. -/
theorem getUsageLoop_missing (read more : List DescriptorItem) (n : Nat) (hmissing : ¬ HasUsage (read ++ more))
    (hn : more.length < n) :
    getUsageLoop (encode (read ++ more)) n (encode read).length (lastUsage read) = some (-1, lastUsage (read ++ more)) := by
  induction more generalizing read n with
  | nil =>
    obtain ⟨n, rfl⟩ := Nat.exists_eq_add_of_lt hn
    rw [List.append_nil, getUsageLoop, if_neg (lt_irrefl _)]
  | cons next more ih =>
    obtain ⟨n, rfl⟩ := Nat.exists_eq_add_of_lt hn
    have hsplit : read ++ next :: more = read ++ [next] ++ more := by simp
    have hnot : ¬ HasUsage (read ++ [next]) := mt (HasUsage.append_right more) (hsplit ▸ hmissing)
    rw [getUsageLoop_item, if_neg hnot, hsplit]
    exact ih _ _ (hsplit ▸ hmissing) (by simp only [List.length_cons]; omega)

theorem length_le_encode (items : List DescriptorItem) : items.length ≤ (encode items).length := by
  induction items with
  | nil => exact le_refl _
  | cons item items ih =>
    have hpos : 0 < item.bytes.length := by cases item <;> exact Nat.succ_pos _
    have hcons : (encode (item :: items)).length = item.bytes.length + (encode items).length := by simp [encode]
    rw [hcons, List.length_cons]
    omega

/-- **The usage in a report descriptor.** The items are read up to the first
that leaves neither kind to be found, and the last usage page and the last
usage of these are the result; without such an item it is a failure. -/
theorem get_usage_iff (items : List DescriptorItem) (r : Int) (u : Usage) :
    getUsage (encode items) = some (r, u) ↔
      (r = 0 ∧ ∃ read item rest, items = read ++ item :: rest ∧ ¬ HasUsage read ∧ HasUsage (read ++ [item]) ∧
        u = lastUsage (read ++ [item])) ∨
      (r = -1 ∧ ¬ HasUsage items ∧ u = lastUsage items) := by
  have hlength := length_le_encode items
  have hfound : ∀ read item rest, items = read ++ item :: rest → ¬ HasUsage read → HasUsage (read ++ [item]) →
      getUsage (encode items) = some (0, lastUsage (read ++ [item])) := by
    rintro read item rest rfl hread hitem
    apply getUsageLoop_found [] read rest item _ hread hitem
    simp only [List.length_append, List.length_cons] at hlength
    omega
  have hmissing : ¬ HasUsage items → getUsage (encode items) = some (-1, lastUsage items) :=
    fun h => getUsageLoop_missing [] items _ h (by omega)
  constructor
  · intro hrun
    by_cases h : HasUsage items
    · have hnil : ¬ HasUsage [] := by simp [HasUsage]
      obtain ⟨read, item, rest, hsplit, hread, hitem⟩ := exists_first hnil h
      rw [hfound read item rest hsplit hread hitem] at hrun
      cases hrun
      exact .inl ⟨rfl, read, item, rest, hsplit, hread, hitem, rfl⟩
    · rw [hmissing h] at hrun
      cases hrun
      exact .inr ⟨rfl, h, rfl⟩
  · rintro (⟨rfl, read, item, rest, hsplit, hread, hitem, rfl⟩ | ⟨rfl, h, rfl⟩)
    · exact hfound read item rest hsplit hread hitem
    · exact hmissing h

/-- A descriptor that says a usage page twice is not read as its first. -/
example : getUsage [0x05, 0x01, 0x05, 0x0c, 0x09, 0x02] = some (0, ⟨0x0c, 0x02, true, true⟩) := by decide

end TouchMouse.Linux
