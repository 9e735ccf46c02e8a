import HeartbeatSpec.Base.NetworkOrder

/-!
# Message types, process states and host integers

Library `Message`. `legacy_compatible/CiHBDefines.h:5–14`, repeated in
`asio_base/HeartBeatSession.h:17–27`. A C `int` is `Int32`; the conversions between `int`
and the unsigned argument and result of `htonl` and `ntohl` keep all 32 bits.
-/

namespace HeartbeatSpec.Message
open HeartbeatSpec.Base

/-- `CiHBMessageType_t`, `legacy_compatible/CiHBDefines.h:5–8`. -/
inductive CiHBMessageType where
  | heartbeatRequest
  | heartbeatResponse
  deriving DecidableEq, Repr

/-- `CiHBState_t`, `legacy_compatible/CiHBDefines.h:10–14`. -/
inductive CiHBState where
  | alive
  | swError
  | hwError
  deriving DecidableEq, Repr

/-- `CIHB_MAX_DATA_SIZE`, `legacy_compatible/CiHBDefines.h:3`. -/
def maxDataSize : Nat := 1350

/-- Value of a message type enumerator. -/
def CiHBMessageType.code : CiHBMessageType → Int32
  | heartbeatRequest => 0
  | heartbeatResponse => 1

/-- Value of a process state enumerator. -/
def CiHBState.code : CiHBState → Int32
  | alive => 0
  | swError => 1
  | hwError => 2

/-- An IPv4 socket address. -/
structure Endpoint where
  address : UInt32
  port : UInt16
  deriving DecidableEq, Repr

/-- A datagram as its sender put it on the wire. -/
structure Datagram where
  sender : Endpoint
  bytes : List UInt8
  deriving DecidableEq, Repr

/-- A datagram handed to the kernel for sending. -/
structure Reply where
  dest : Endpoint
  bytes : List UInt8
  deriving DecidableEq, Repr

/-- `htonl` on the given host. -/
def htonl (e : Endian) (x : UInt32) : UInt32 := UInt32.ofNat (e.hostToNetwork 4 x.toNat)

/-- `ntohl` on the given host. -/
def ntohl (e : Endian) (x : UInt32) : UInt32 := UInt32.ofNat (e.networkToHost 4 x.toNat)

/-- The four bytes of an `int` in memory. -/
def storeInt (e : Endian) (x : Int32) : List UInt8 := e.store 4 x.toUInt32.toNat

/-- The `int` whose four bytes are in memory. -/
def loadInt (e : Endian) (bs : List UInt8) : Int32 := (UInt32.ofNat (e.load bs)).toInt32

/-- An `int` has four bytes. -/
@[simp] theorem length_storeInt (e : Endian) (x : Int32) : (storeInt e x).length = 4 :=
  e.length_store 4 _

private theorem toNat_lt (x : UInt32) : x.toNat < 256 ^ 4 := x.toNat_lt

private theorem toNat_ofNat_load (w : Nat) (h : w < 256 ^ 4) : (UInt32.ofNat w).toNat = w := by
  rw [UInt32.toNat_ofNat']
  exact Nat.mod_eq_of_lt h

/-- The bytes of a converted word are its network bytes, on either host. -/
theorem storeInt_htonl (e : Endian) (x : UInt32) :
    storeInt e (htonl e x).toInt32 = networkBytes 4 x.toNat := by
  rw [storeInt, htonl, UInt32.toUInt32_toInt32,
    toNat_ofNat_load _ (e.hostToNetwork_lt (toNat_lt x)), e.store_hostToNetwork]

/-- Four received bytes, loaded and converted, are their network value, on either host. -/
theorem ntohl_loadInt (e : Endian) {bs : List UInt8} (h : bs.length = 4) :
    ntohl e (loadInt e bs).toUInt32 = UInt32.ofNat (networkValue bs) := by
  have hl := e.load_lt bs
  rw [h] at hl
  rw [ntohl, loadInt, UInt32.toUInt32_toInt32, toNat_ofNat_load _ hl, e.networkToHost_load h]

/-- The word of four bytes has those bytes in network order. -/
theorem networkBytes_ofNat {bs : List UInt8} (h : bs.length = 4) :
    networkBytes 4 (UInt32.ofNat (networkValue bs)).toNat = bs := by
  have hl := networkValue_lt bs
  rw [h] at hl
  rw [toNat_ofNat_load _ hl, networkBytes_networkValue h]

/-- A zero word is four zero bytes. -/
theorem ofNat_networkValue_eq_zero_iff {bs : List UInt8} (h : bs.length = 4) :
    (UInt32.ofNat (networkValue bs)).toInt32 = 0 ↔ ∀ b ∈ bs, b = 0 := by
  have hl := networkValue_lt bs
  rw [h] at hl
  rw [← networkValue_eq_zero_iff]
  constructor
  · intro hz
    have hu : UInt32.ofNat (networkValue bs) = 0 := by
      rw [← UInt32.toUInt32_toInt32 (UInt32.ofNat (networkValue bs)), hz]
      rfl
    rw [← toNat_ofNat_load _ hl, hu]
    rfl
  · intro hz
    rw [hz]
    rfl

end HeartbeatSpec.Message
