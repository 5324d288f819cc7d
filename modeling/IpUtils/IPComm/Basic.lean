import IpUtils.Session.Conn
import IpUtils.Blocking

/-! # The address of a connection

The part of an `IPComm` that addresses its peer, with the descriptor that it sends on.
-/

namespace IpUtils

open CLib

namespace IPComm

/-- `AF_UNSPEC`. -/
def afUnspec : Int := 0

/-- `sizeof(struct sockaddr_in)`. -/
def sizeofSockaddrIn : Nat := 16

/-- `sizeof(struct sockaddr_in6)`. -/
def sizeofSockaddrIn6 : Nat := 28

end IPComm

open IPComm

/-- `sockaddr` are the bytes of the union `sockaddr_`. -/
structure Endpoint where
  fd : Int := descriptorNull
  blocking : Bool := true
  addressFamily : Int := afUnspec
  sockaddr : Bytes := List.replicate sizeofSockaddrIn6 0
  dnsNames : List Bytes := []
  deriving DecidableEq, Repr

namespace Endpoint

/-- `memcpy` to the start of the union. -/
def copySockaddr (comm : Endpoint) (source : Bytes) : Endpoint :=
  { comm with sockaddr := store comm.sockaddr 0 source }

/-- `set_address_family`. For a family that it does not know it prints a warning. -/
def setAddressFamily (comm : Endpoint) (family : Int) : Endpoint :=
  let comm := { comm with addressFamily := family }
  if family = afInet ∨ family = afInet6 then
    comm.copySockaddr [family.toNat.toUInt8, 0]
  else comm

@[simp] theorem addressFamily_copySockaddr (comm : Endpoint) (source : Bytes) :
    (comm.copySockaddr source).addressFamily = comm.addressFamily := rfl

@[simp] theorem addressFamily_setAddressFamily (comm : Endpoint) (family : Int) :
    (comm.setAddressFamily family).addressFamily = family := by
  unfold setAddressFamily
  split <;> rfl

end Endpoint

end IpUtils
