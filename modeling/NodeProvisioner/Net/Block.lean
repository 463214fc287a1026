import NodeProvisioner.Decimal.Reading
import NodeProvisioner.Net.Address

/-!
# Blocks of addresses

A block is given by one of its addresses and the length of the prefix that all of them share. The
first host of a block follows the address of the network itself, which has only zeros after the
prefix. Blocks of one or two addresses have no hosts.

Addresses and lengths are words of thirty-two bits, and hosts are computed in words.
-/

namespace NodeProvisioner

/-- The word that octets make up. -/
def ofOctets (octets : List UInt8) : UInt32 := octets.foldl (fun n o => 256 * n + o.toUInt32) 0

/-- The four octets of a word. -/
def toOctets (n : UInt32) : List UInt8 := [n >>> 24, n >>> 16, n >>> 8, n].map UInt32.toUInt8

/-- A word shifted to the left, if it is not shifted by the whole width. -/
def shiftLeft? (n places : UInt32) : Option UInt32 :=
  if places < 32 then some (n <<< places) else none

/-- A block of addresses: one of them, and how many of the first bits all of them share. -/
structure AddressBlock where
  address : UInt32
  length : UInt32
deriving DecidableEq

namespace AddressBlock

/-- Reads a block: an address of four octets, a slash and a length. -/
def parse (text : String) : Option AddressBlock :=
  let (address, rest) := text.toList.span (· ≠ '/')
  match rest with
  | [] => none
  | _ :: length => do
    let (octets, rest) ← IpAddress.fourOctets? address
    let n ← Decimal.natural? 32 length
    if rest.isEmpty then some ⟨ofOctets octets, .ofNat n⟩ else none

/-- Ones for the bits that the addresses share, and zeros for the others. -/
def mask (b : AddressBlock) : UInt32 := (shiftLeft? 0xffffffff (32 - b.length)).getD 0

/-- The address of the network itself. -/
def network (b : AddressBlock) : UInt32 := b.address &&& b.mask

/-- The first host of the block. -/
def firstHost? (b : AddressBlock) : Option UInt32 :=
  if b.length ≥ 31 then none else some (b.network + 1)

end AddressBlock

/-- The first host of a block, both in text. -/
def firstHostText? (block : String) : Option String := do
  let host ← (← AddressBlock.parse block).firstHost?
  return IpAddress.pointed (toOctets host)

end NodeProvisioner
