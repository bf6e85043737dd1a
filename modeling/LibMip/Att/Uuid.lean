import LibMip.Foundation.HexScan
import LibMip.Foundation.Octets

/-!
# UUIDs

A `bt_uuid_t` holds 16, 32 or 128 bits, and stands for a UUID of 128 bits in any case: the short
ones are the base UUID with their bits put in front. The text of a UUID tells its size, so
`bt_string_to_uuid` has back what `bt_uuid_to_string` was given.
-/

namespace LibMip.Att

open HexStream Octets

/-- `uint128_t`, on a host that has the least significant octet first. -/
structure UInt128 where
  data : List UInt8
  sized : data.length = 16
  deriving DecidableEq

/-- `bt_uuid_t`. -/
inductive Uuid where
  | uuid16 (u16 : UInt16)
  | uuid32 (u32 : UInt32)
  | uuid128 (u128 : UInt128)
  deriving DecidableEq

def bluetoothBaseUuid : List UInt8 :=
  [0xFB, 0x34, 0x9B, 0x5F, 0x80, 0x00, 0x00, 0x80, 0x00, 0x10, 0x00, 0x00, 0x00, 0x00, 0x00, 0x00]

/-- `bt_uuid_to_uuid128`: the short ones overwrite the base from `BASE_UUID16_OFFSET` on. -/
def Uuid.to128 : Uuid → UInt128
  | .uuid16 u16 => ⟨bluetoothBaseUuid.take 12 ++ putU16 u16 ++ bluetoothBaseUuid.drop 14,
      by simp [bluetoothBaseUuid]⟩
  | .uuid32 u32 => ⟨bluetoothBaseUuid.take 12 ++ octets 4 u32.toNat, by simp [bluetoothBaseUuid]⟩
  | .uuid128 u128 => u128

/-- `ntohl` and `ntohs` of the octets of a number in network order. -/
def ntoh (bs : List UInt8) : Nat := value bs.reverse

/-- The octets of a number in network order, as `htonl` and `htons` leave them. -/
def hton (n v : Nat) : List UInt8 := (octets n v).reverse

def dash : UInt8 := 45

/-- `bt_uuid_to_string`. -/
def btUuidToString : Uuid → List UInt8
  | .uuid16 u16 => printHex 4 u16.toNat
  | .uuid32 u32 => printHex 8 u32.toNat
  | .uuid128 u128 =>
    let data := u128.data.reverse
    printHex 8 (ntoh (data.take 4)) ++ dash :: (printHex 4 (ntoh ((data.drop 4).take 2)) ++
      dash :: (printHex 4 (ntoh ((data.drop 6).take 2)) ++
      dash :: (printHex 4 (ntoh ((data.drop 8).take 2)) ++
      dash :: (printHex 8 (ntoh ((data.drop 10).take 4)) ++
        printHex 4 (ntoh ((data.drop 14).take 2))))))

/-- `is_uuid128`. -/
def isUuid128 (s : List UInt8) : Bool :=
  s.length = 36 && s[8]? = some dash && s[13]? = some dash && s[18]? = some dash &&
    s[23]? = some dash

/-- `is_uuid32`. -/
def isUuid32 (s : List UInt8) : Bool := s.length = 8 || s.length = 10

/-- `is_uuid16`. -/
def isUuid16 (s : List UInt8) : Bool := s.length = 4 || s.length = 6

/-- `strtol` to the base 16 of a whole string, no longer than ten characters. -/
def strtol16 (s : List UInt8) : Option Int :=
  match scanHex s.length s with
  | some (n, []) => some n
  | _ => none

/-- `%08x` and `%04hx`: the number is cut to the octets it is stored in. -/
def scanUnsigned (n : Nat) (s : List UInt8) : Option (Nat × List UInt8) :=
  (scanHex (2 * n) s).map fun r => ((r.1 % 256 ^ n).toNat, r.2)

/-- A dash in the format of `sscanf`. -/
def scanDash : List UInt8 → Option (List UInt8)
  | [] => none
  | c :: s => if c = dash then some s else none

/-- `bt_string_to_uuid128`. -/
def btStringToUuid128 (s : List UInt8) : Option UInt128 := do
  let (data0, s) ← scanUnsigned 4 s
  let s ← scanDash s
  let (data1, s) ← scanUnsigned 2 s
  let s ← scanDash s
  let (data2, s) ← scanUnsigned 2 s
  let s ← scanDash s
  let (data3, s) ← scanUnsigned 2 s
  let s ← scanDash s
  let (data4, s) ← scanUnsigned 4 s
  let (data5, _) ← scanUnsigned 2 s
  some ⟨(hton 4 data0 ++ (hton 2 data1 ++ (hton 2 data2 ++ (hton 2 data3 ++
    (hton 4 data4 ++ hton 2 data5))))).reverse, by simp [hton]⟩

/-- `bt_string_to_uuid`. -/
def btStringToUuid (s : List UInt8) : Option Uuid :=
  if isUuid128 s then (btStringToUuid128 s).map .uuid128
  else if isUuid32 s then (strtol16 s).map fun n => .uuid32 (UInt32.ofInt n)
  else if isUuid16 s then (strtol16 s).map fun n => .uuid16 (UInt16.ofInt n)
  else none

/-- `bt_uuid_cmp` has the UUIDs equal. -/
def btUuidCmp (u v : Uuid) : Bool := u.to128.data = v.to128.data

/-! ## Texts -/

theorem hton_ntoh {bs : List UInt8} {n : Nat} (len : bs.length = n) : hton n (ntoh bs) = bs := by
  rw [hton, ntoh, ← len, ← bs.length_reverse, octets_value, List.reverse_reverse]

theorem ntoh_lt (bs : List UInt8) : ntoh bs < 256 ^ bs.length := by
  have fixed := value_octets bs.length (ntoh bs)
  rw [ntoh, ← bs.length_reverse, octets_value] at fixed
  rw [ntoh, ← bs.length_reverse, fixed]
  exact Nat.mod_lt _ (by positivity)

theorem strtol16_printHex {width n : Nat} (positive : 0 < width) (small : n < 16 ^ width) :
    strtol16 (printHex width n) = some (n : Int) := by
  have read := scanHex_printHex positive n []
  rw [List.append_nil, Nat.mod_eq_of_lt small] at read
  rw [strtol16, printHex_length, read]

theorem scanUnsigned_printHex {bs : List UInt8} {n : Nat} (len : bs.length = n) (positive : 0 < n)
    (rest : List UInt8) :
    scanUnsigned n (printHex (2 * n) (ntoh bs) ++ rest) = some (ntoh bs, rest) := by
  have small : ntoh bs < 256 ^ n := len ▸ ntoh_lt bs
  have wide : 16 ^ (2 * n) = 256 ^ n := by rw [Nat.pow_mul]
  rw [scanUnsigned, scanHex_printHex (by omega), wide, Nat.mod_eq_of_lt small, Option.map_some]
  congr 2
  have : ((ntoh bs : Int) % (256 : Int) ^ n) = ntoh bs :=
    Int.emod_eq_of_lt (by omega) (by exact_mod_cast small)
  rw [this, Int.toNat_natCast]

@[simp] theorem scanDash_cons (s : List UInt8) : scanDash (dash :: s) = some s := by
  rw [scanDash, if_pos rfl]

/-- The text of a UUID of 128 bits is read in its six numbers. -/
theorem btStringToUuid128_toString (u : UInt128) :
    btStringToUuid128 (btUuidToString (.uuid128 u)) = some u := by
  obtain ⟨data, sized⟩ := u
  have l0 : (data.reverse.take 4).length = 4 := by simp [sized]
  have l1 : ((data.reverse.drop 4).take 2).length = 2 := by simp [sized]
  have l2 : ((data.reverse.drop 6).take 2).length = 2 := by simp [sized]
  have l3 : ((data.reverse.drop 8).take 2).length = 2 := by simp [sized]
  have l4 : ((data.reverse.drop 10).take 4).length = 4 := by simp [sized]
  have l5 : ((data.reverse.drop 14).take 2).length = 2 := by simp [sized]
  have last := scanUnsigned_printHex l5 (by decide) []
  rw [List.append_nil] at last
  have join (n i : Nat) : (data.reverse.drop i).take n ++ data.reverse.drop (i + n) =
      data.reverse.drop i := by rw [← List.drop_drop, List.take_append_drop]
  have ending : (data.reverse.drop 14).take 2 = data.reverse.drop 14 :=
    List.take_of_length_le (by simp [sized])
  have whole : data.reverse.take 4 ++ ((data.reverse.drop 4).take 2 ++
      ((data.reverse.drop 6).take 2 ++ ((data.reverse.drop 8).take 2 ++
      ((data.reverse.drop 10).take 4 ++ (data.reverse.drop 14).take 2)))) = data.reverse := by
    rw [ending, join 4 10, join 2 8, join 2 6, join 2 4, List.take_append_drop]
  simp only [btStringToUuid128, btUuidToString, scanUnsigned_printHex l0 (by decide),
    scanUnsigned_printHex l1 (by decide), scanUnsigned_printHex l2 (by decide),
    scanUnsigned_printHex l3 (by decide), scanUnsigned_printHex l4 (by decide), last,
    scanDash_cons, Option.bind_eq_bind, Option.bind_some, hton_ntoh l0, hton_ntoh l1,
    hton_ntoh l2, hton_ntoh l3, hton_ntoh l4, hton_ntoh l5, whole, List.reverse_reverse]

theorem isUuid128_toString (u : UInt128) : isUuid128 (btUuidToString (.uuid128 u)) = true := by
  simp [isUuid128, btUuidToString]

/-- `bt_string_to_uuid` reads the text of every UUID as that UUID. -/
theorem btStringToUuid_toString (u : Uuid) : btStringToUuid (btUuidToString u) = some u := by
  cases u with
  | uuid16 u16 =>
    have small : u16.toNat < 16 ^ 4 := u16.toNat_lt
    have same : UInt16.ofInt u16.toNat = u16 := by
      rw [UInt16.ofInt, Int.emod_eq_of_lt (by omega) (by omega), Int.toNat_natCast,
        UInt16.ofNat_toNat]
    have short : isUuid128 (printHex 4 u16.toNat) = false := by simp [isUuid128]
    have no32 : isUuid32 (printHex 4 u16.toNat) = false := by simp [isUuid32]
    have is16 : isUuid16 (printHex 4 u16.toNat) = true := by simp [isUuid16]
    simp [btStringToUuid, btUuidToString, short, no32, is16, same,
      strtol16_printHex (by decide) small]
  | uuid32 u32 =>
    have small : u32.toNat < 16 ^ 8 := u32.toNat_lt
    have same : UInt32.ofInt u32.toNat = u32 := by
      rw [UInt32.ofInt, Int.emod_eq_of_lt (by omega) (by omega), Int.toNat_natCast,
        UInt32.ofNat_toNat]
    have short : isUuid128 (printHex 8 u32.toNat) = false := by simp [isUuid128]
    have is32 : isUuid32 (printHex 8 u32.toNat) = true := by simp [isUuid32]
    simp [btStringToUuid, btUuidToString, short, is32, same,
      strtol16_printHex (by decide) small]
  | uuid128 u128 =>
    rw [btStringToUuid, if_pos (isUuid128_toString u128), btStringToUuid128_toString,
      Option.map_some]

end LibMip.Att
