import Mathlib.Data.List.Induction
import Lnmp.Foundation.InetNtop

/-!
# Flow records and NetFlow v5

Big-endian numbers in a datagram, the flow dictionaries that the parsers produce, and
`monitoring/flow/v5_parser.py`. Times are exact rationals, in seconds.
-/

set_option autoImplicit false
set_option relaxedAutoImplicit false

namespace Lnmp.Flow

open Lnmp.Foundation Lnmp.Foundation.PythonText Lnmp.Foundation.IpAddress

/-! ### Bytes -/

/-- `data[start:start + length]`. -/
def slice (data : List UInt8) (start length : ℕ) : List UInt8 := (data.drop start).take length

/-- `int.from_bytes(data, "big")`. -/
def fromBytes (data : List UInt8) : ℕ := data.foldl (fun value byte ↦ value * 256 + byte.toNat) 0

/-- The unsigned number of some bytes at an offset, as `struct` unpacks it. -/
def unsignedAt (data : List UInt8) (offset size : ℕ) : ℕ := fromBytes (slice data offset size)

/-- The octets of packed bytes. -/
def octets (data : List UInt8) : List ℕ := data.map UInt8.toNat

theorem length_slice_le (data : List UInt8) (start length : ℕ) :
    (slice data start length).length ≤ length := List.length_take_le _ _

theorem length_slice {data : List UInt8} {start length : ℕ}
    (hinside : start + length ≤ data.length) : (slice data start length).length = length := by
  rw [slice, List.length_take, List.length_drop]
  omega

theorem fromBytes_concat (data : List UInt8) (byte : UInt8) :
    fromBytes (data ++ [byte]) = fromBytes data * 256 + byte.toNat := by
  rw [fromBytes, List.foldl_concat]
  rfl

theorem fromBytes_lt (data : List UInt8) : fromBytes data < 256 ^ data.length := by
  induction data using List.reverseRecOn with
  | nil => exact Nat.one_pos
  | append_singleton data byte ih =>
    have hlast := byte.toNat_lt
    rw [fromBytes_concat, List.length_append, List.length_singleton, pow_succ]
    omega

theorem unsignedAt_lt (data : List UInt8) (offset size : ℕ) :
    unsignedAt data offset size < 256 ^ size :=
  (fromBytes_lt _).trans_le (Nat.pow_le_pow_right (by decide) (length_slice_le data offset size))

theorem octets_lt (data : List UInt8) : ∀ octet ∈ octets data, octet < 256 := by
  intro octet hoctet
  obtain ⟨byte, -, rfl⟩ := List.mem_map.mp hoctet
  exact byte.toNat_lt

/-- `inet_ntop` of four bytes gives an address. -/
theorem isAddressText_inetNtopV4_octets {data : List UInt8} (hlength : data.length = 4) :
    IsAddressText (inetNtopV4 (octets data)) :=
  isAddressText_inetNtopV4 ((List.length_map _).trans hlength) (octets_lt data)

/-- `inet_ntop` of sixteen bytes gives an address. -/
theorem isAddressText_inetNtopV6_octets {data : List UInt8} (hlength : data.length = 16) :
    IsAddressText (inetNtopV6 (octets data)) :=
  isAddressText_inetNtopV6 ((List.length_map _).trans hlength) (octets_lt data)

/-! ### Flows -/

/-- A normalized flow dictionary. -/
structure FlowDict where
  version : ℕ
  exporterIp : String
  srcIp : String
  dstIp : String
  srcPort : ℕ
  dstPort : ℕ
  protocol : ℕ
  bytes : ℕ
  packets : ℕ
  tcpFlags : ℕ
  inputIf : ℕ
  outputIf : ℕ
  startTime : ℚ
  endTime : ℚ
  deriving DecidableEq

/-- The milliseconds from an uptime to the current one, which may have rolled over since. -/
def uptimeDiff (sysUptime uptimeMs : ℕ) : ℤ :=
  let diff : ℤ := (sysUptime : ℤ) - uptimeMs
  if diff < 0 then diff + 0x100000000 else diff

/-! ### NetFlow v5 -/

/-- The header of a v5 packet, and one of its records. -/
structure V5Record where
  exporterIp : String
  header : List UInt8
  record : List UInt8
  header_length : header.length = 24
  record_length : record.length = 48

/-- The time of an uptime, or that of the packet when the uptime is more than 30 days ago. -/
def calcFlowTime (sysUptime unixSecs uptimeMs : ℕ) : ℚ :=
  let diff := uptimeDiff sysUptime uptimeMs
  if 2592000000 < diff then unixSecs else unixSecs - (diff : ℚ) / 1000

/-- The sampling multiplier: the bottom 14 bits of the last header field. -/
def V5Record.multiplier (record : V5Record) : ℕ :=
  let samplingInterval := unsignedAt record.header 22 2 % 0x4000
  if 0 < samplingInterval then samplingInterval else 1

/-- The flow of a record. -/
def V5Record.flow (record : V5Record) : FlowDict :=
  let sysUptime := unsignedAt record.header 4 4
  let unixSecs := unsignedAt record.header 8 4
  { version := 5
    exporterIp := record.exporterIp
    srcIp := inetNtopV4 (octets (slice record.record 0 4))
    dstIp := inetNtopV4 (octets (slice record.record 4 4))
    srcPort := unsignedAt record.record 32 2
    dstPort := unsignedAt record.record 34 2
    protocol := unsignedAt record.record 38 1
    bytes := unsignedAt record.record 20 4 * record.multiplier
    packets := unsignedAt record.record 16 4 * record.multiplier
    tcpFlags := unsignedAt record.record 37 1
    inputIf := unsignedAt record.record 12 2
    outputIf := unsignedAt record.record 14 2
    startTime := calcFlowTime sysUptime unixSecs (unsignedAt record.record 24 4)
    endTime := calcFlowTime sysUptime unixSecs (unsignedAt record.record 28 4) }

/-- The number of records of a v5 packet: as many as its header says, and as fit into it. -/
def v5RecordCount (data : List UInt8) : ℕ :=
  if data.length < 24 ∨ unsignedAt data 0 2 ≠ 5 ∨ unsignedAt data 2 2 = 0 then 0
  else min (unsignedAt data 2 2) ((data.length - 24) / 48)

theorem le_length_of_lt_v5RecordCount {data : List UInt8} {index : ℕ}
    (hindex : index < v5RecordCount data) : 24 + index * 48 + 48 ≤ data.length := by
  unfold v5RecordCount at hindex
  split_ifs at hindex
  · exact absurd hindex (Nat.not_lt_zero _)
  · have hfits := hindex.trans_le (Nat.min_le_right _ _)
    omega

/-- `parse_v5_packet`: the records, each of which is one flow. -/
def parseV5Packet (data : List UInt8) (exporterIp : String) : List V5Record :=
  List.ofFn fun index : Fin (v5RecordCount data) ↦
    { exporterIp := exporterIp
      header := slice data 0 24
      record := slice data (24 + index.val * 48) 48
      header_length := length_slice (by
        have hfits := le_length_of_lt_v5RecordCount index.isLt
        omega)
      record_length := length_slice (le_length_of_lt_v5RecordCount index.isLt) }

end Lnmp.Flow
