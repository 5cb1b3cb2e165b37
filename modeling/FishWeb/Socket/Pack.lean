import FishWeb.Lib.Bytes
import FishWeb.Lib.Python
/-!
# Packed messages

`Packer.pack` of `tasks/webSocketConnection.py`, and the procedure that undoes it. `pack`
takes `StringIO` and `time` from the globals of its file, which has the module in place of
the class `StringIO` and no `time` at all: a packer with one of its flags raises. With both
names bound as they are meant a message is read back, whatever the flags
(`unpack_pack`).
-/
open Bytes
open Python (ok_bind)

namespace FishWeb.Socket

inductive Err where
  | AssertionError | TypeError | NameError | struct_error
  deriving Repr, DecidableEq

/-! ## Packing -/

/-- A protocol object: its class and what it is serialized to. -/
structure Message where
  cls : String
  serialized : List UInt8

structure Packer where
  msg_code : Nat
  msg_cls : String
  compress : Bool
  timestamp : Bool

/-- What `pack` finds under the names that are not its own. -/
structure Globals where
  /-- `StringIO()` -/
  stringIO : Except Err Unit
  /-- `int(time.time() * 1000)` -/
  millis : Except Err Nat
  /-- What `gzip.GzipFile` writes of the data. -/
  gzip : List UInt8 → List UInt8

/-- The globals of the file: `import StringIO` binds a module, which cannot be called, and nothing binds `time`. -/
def webSocketConnection (gzip : List UInt8 → List UInt8) : Globals where
  stringIO := .error .TypeError
  millis := .error .NameError
  gzip := gzip

/-- `struct.pack` of a number in `k` bytes, in network order. -/
def structPack (k n : Nat) : Except Err (List UInt8) := if n < 256 ^ k then .ok (bigEndian k n) else .error .struct_error

/-- `chr` of a flag. -/
def chr (flag : Bool) : UInt8 := if flag then 1 else 0

/-- The data as it is sent, gzipped if the packer compresses. -/
def compressed (g : Globals) (p : Packer) (_data : List UInt8) : Except Err (List UInt8) := do
  if p.compress then
    g.stringIO
    return g.gzip _data
  return _data

def insertData (g : Globals) (p : Packer) : Except Err (List UInt8) := do
  if p.timestamp then
    return [chr p.compress, chr p.timestamp] ++ (← structPack 8 (← g.millis))
  return [chr p.compress, chr p.timestamp]

def pack (g : Globals) (p : Packer) (protocol_object : Message) : Except Err (List UInt8) := do
  if protocol_object.cls ≠ p.msg_cls then throw .AssertionError
  let _data := (← structPack 4 p.msg_code) ++ protocol_object.serialized
  let _data ← compressed g p _data
  let insertData ← insertData g p
  let compressIdx := (_data.length + insertData.length) / 3
  return splice compressIdx insertData _data

/-! ## Unpacking -/

variable (gunzip : List UInt8 → Option (List UInt8))

/-- The code and the payload: the flags are a third of the way in, and are cut out. -/
def unpack (bytes : List UInt8) : Option (Nat × List UInt8) := do
  let i := bytes.length / 3
  let compress ← bytes[i]?
  let timestamp ← bytes[i + 1]?
  let _data := cut i bytes (if timestamp = 1 then 10 else 2)
  let _data ← if compress = 1 then gunzip _data else some _data
  return (value (_data.take 4), _data.drop 4)

/-- The message is packed, and read back. -/
def Framed (g : Globals) (p : Packer) (m : Message) : Prop :=
  ∃ bytes, pack g p m = .ok bytes ∧ unpack gunzip bytes = some (p.msg_code, m.serialized)

variable {gunzip} {g : Globals} {p : Packer} {m : Message}

theorem structPack_ok {k n : Nat} (h : n < 256 ^ k) : structPack k n = .ok (bigEndian k n) := if_pos h

/-- The flag bytes, and eight bytes more with a timestamp. -/
theorem insertData_ok (hms : p.timestamp = true → ∃ ms < 256 ^ 8, g.millis = .ok ms) :
    ∃ rest, insertData g p = .ok (chr p.compress :: chr p.timestamp :: rest) ∧ rest.length = if p.timestamp then 8 else 0 := by
  unfold insertData
  cases hts : p.timestamp with
  | false => exact ⟨[], rfl, rfl⟩
  | true =>
    obtain ⟨ms, hlt, heq⟩ := hms hts
    refine ⟨bigEndian 8 ms, ?_, by simp⟩
    rw [if_pos rfl, heq]
    simp only [ok_bind rfl]
    rw [structPack_ok hlt]
    rfl

/-- What is sent is the data, or a gzip file of it, which is not shorter than its header and its trailer. -/
theorem compressed_ok (hio : p.compress = true → g.stringIO = .ok ())
    (hgzip : p.compress = true → ∀ l, gunzip (g.gzip l) = some l ∧ 18 ≤ (g.gzip l).length) {_data : List UInt8}
    (hlen : 4 ≤ _data.length) :
    ∃ sent, compressed g p _data = .ok sent ∧ 4 ≤ sent.length ∧ (if p.compress then gunzip sent else some sent) = some _data := by
  unfold compressed
  cases hc : p.compress with
  | false => exact ⟨_data, rfl, hlen, rfl⟩
  | true =>
    obtain ⟨hback, hlong⟩ := hgzip hc _data
    rw [hio hc]
    exact ⟨g.gzip _data, rfl, by omega, hback⟩

theorem pack_ok {sent header : List UInt8} (hcls : m.cls = p.msg_cls) (hcode : p.msg_code < 256 ^ 4)
    (hsent : compressed g p (bigEndian 4 p.msg_code ++ m.serialized) = .ok sent) (hheader : insertData g p = .ok header) :
    pack g p m = .ok (splice ((sent.length + header.length) / 3) header sent) := by
  unfold pack
  rw [if_neg (not_not.2 hcls), structPack_ok hcode]
  simp only [ok_bind rfl]
  rw [ok_bind hsent, ok_bind hheader]
  rfl

/-- A header that begins with the flags, and is as long as they say, is found and cut out. -/
theorem unpack_splice {compress timestamp : Bool} {rest sent : List UInt8}
    (hrest : rest.length = if timestamp then 8 else 0) (hlen : 4 ≤ sent.length) :
    unpack gunzip (splice ((sent.length + (chr compress :: chr timestamp :: rest).length) / 3)
      (chr compress :: chr timestamp :: rest) sent) =
      (if compress then gunzip sent else some sent).map fun _data => (value (_data.take 4), _data.drop 4) := by
  have hi : (sent.length + (chr compress :: chr timestamp :: rest).length) / 3 ≤ sent.length := by
    simp only [List.length_cons, hrest]
    split <;> omega
  unfold unpack
  rw [length_splice]
  generalize (sent.length + (chr compress :: chr timestamp :: rest).length) / 3 = i at hi
  have htake : (sent.take i).length = i := by simp [hi]
  have hfirst : (splice i (chr compress :: chr timestamp :: rest) sent)[i]? = some (chr compress) := by
    simp [splice, htake]
  have hsecond : (splice i (chr compress :: chr timestamp :: rest) sent)[i + 1]? = some (chr timestamp) := by
    simp [splice, htake]
  have hk : (if chr timestamp = 1 then 10 else 2) = (chr compress :: chr timestamp :: rest).length := by
    cases timestamp <;> simp_all [chr]
  simp only [hfirst, hsecond, Option.bind_eq_bind, Option.bind_some, hk, cut_splice hi]
  cases compress with
  | false => rfl
  | true =>
    cases gunzip sent <;> simp [chr]

/-- A packer whose names are bound as they are meant: its messages are read back. -/
theorem unpack_pack (hcls : m.cls = p.msg_cls) (hcode : p.msg_code < 256 ^ 4) (hio : p.compress = true → g.stringIO = .ok ())
    (hgzip : p.compress = true → ∀ l, gunzip (g.gzip l) = some l ∧ 18 ≤ (g.gzip l).length)
    (hms : p.timestamp = true → ∃ ms < 256 ^ 8, g.millis = .ok ms) : Framed gunzip g p m := by
  have hlen : 4 ≤ (bigEndian 4 p.msg_code ++ m.serialized).length := by simp
  obtain ⟨sent, hsent, hlong, hback⟩ := compressed_ok hio hgzip hlen
  obtain ⟨rest, hheader, hrest⟩ := insertData_ok hms
  refine ⟨_, pack_ok hcls hcode hsent hheader, ?_⟩
  have hfour : (bigEndian 4 p.msg_code).length = 4 := length_bigEndian 4 _
  rw [unpack_splice hrest hlong, hback, Option.map_some, List.take_left' hfour, List.drop_left' hfour, value_bigEndian hcode]

/-! ## The packers of the file -/

/-- A packer with a flag raises. -/
theorem pack_raises (gzip : List UInt8 → List UInt8) (h : p.compress = true ∨ p.timestamp = true) :
    ∃ e, pack (webSocketConnection gzip) p m = .error e := by
  unfold pack
  by_cases hcls : m.cls ≠ p.msg_cls
  · exact ⟨_, by rw [if_pos hcls]; rfl⟩
  · rw [if_neg hcls]
    by_cases hcode : p.msg_code < 256 ^ 4
    · rw [structPack_ok hcode]
      simp only [ok_bind rfl, compressed, insertData]
      cases hc : p.compress with
      | true => exact ⟨.TypeError, rfl⟩
      | false =>
        have hts : p.timestamp = true := h.resolve_left (by simp [hc])
        exact ⟨.NameError, by rw [hts]; rfl⟩
    · exact ⟨.struct_error, by rw [structPack, if_neg hcode]; rfl⟩

/-- For every code of 32 bits, every payload and both flags: the message is packed and read back exactly when neither flag is set. -/
theorem pack_framed_iff (gzip : List UInt8 → List UInt8) (gunzip : List UInt8 → Option (List UInt8)) (p : Packer) (m : Message)
    (hcls : m.cls = p.msg_cls) (hcode : p.msg_code < 2 ^ 32) :
    Framed gunzip (webSocketConnection gzip) p m ↔ p.compress = false ∧ p.timestamp = false := by
  constructor
  · rintro ⟨bytes, hpack, -⟩
    by_contra hflags
    have hset : p.compress = true ∨ p.timestamp = true := by
      cases hc : p.compress <;> cases ht : p.timestamp <;> simp_all
    obtain ⟨e, he⟩ := pack_raises (m := m) gzip hset
    rw [he] at hpack
    cases hpack
  · rintro ⟨hc, ht⟩
    exact unpack_pack hcls hcode (by simp [hc]) (by simp [hc]) (by simp [ht])

/-- A packer without flags. -/
def plainPacker : Packer := ⟨2007, "S_S_Robotaddr", false, false⟩

theorem pack_framed_plain :
    (⟨"S_S_Robotaddr", [8, 1]⟩ : Message).cls = plainPacker.msg_cls ∧ plainPacker.msg_code < 2 ^ 32 ∧
    (Framed some (webSocketConnection id) plainPacker ⟨"S_S_Robotaddr", [8, 1]⟩ ↔
      plainPacker.compress = false ∧ plainPacker.timestamp = false) :=
  ⟨rfl, by decide, pack_framed_iff id some plainPacker ⟨"S_S_Robotaddr", [8, 1]⟩ rfl (by decide)⟩

/-- The same packer with a timestamp asks for `time`, which has no value. -/
theorem timestamp_raises :
    pack (webSocketConnection id) { plainPacker with timestamp := true } ⟨"S_S_Robotaddr", [8, 1]⟩ = .error .NameError ∧
    ¬Framed some (webSocketConnection id) { plainPacker with timestamp := true } ⟨"S_S_Robotaddr", [8, 1]⟩ := by
  refine ⟨rfl, ?_⟩
  rintro ⟨bytes, hpack, -⟩
  cases hpack

end FishWeb.Socket
