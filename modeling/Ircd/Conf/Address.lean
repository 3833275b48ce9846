import Ircd.Text.CString

/-! `is_address` of `s_conf.c`: a dotted address with a prefix length or a final `*`.

An address is an `unsigned long` of 64 bits and an octet an `unsigned int`, so that a mask
with more than four parts does not wrap at 32 bits.
-/

set_option autoImplicit false

namespace Ircd

def cidrToBitmask (bits : Nat) : Nat := 2 ^ 32 - 2 ^ (32 - bits)

/-- The variables of `is_address`; `ipPtr` is the address that a `/` has stored. -/
structure AddressScan where
  currentIp : Nat
  octet : Nat
  foundMask : Bool
  dotCount : Nat
  ipPtr : Nat
  prev : Char

def AddressScan.start : AddressScan where
  currentIp := 0
  octet := 0
  foundMask := false
  dotCount := 0
  ipPtr := 0
  prev := '\x00'

namespace AddressScan

def shifted (s : AddressScan) : Nat := (s.currentIp * 256 % 2 ^ 64 + s.octet) % 2 ^ 64

def digit (s : AddressScan) (c : Char) : AddressScan :=
  { s with octet := (s.octet * 10 + c.toNat % 16) % 2 ^ 32, prev := c }

def dot (s : AddressScan) : AddressScan :=
  { s with currentIp := s.shifted, octet := 0, dotCount := s.dotCount + 1, prev := '.' }

def slash (s : AddressScan) : AddressScan :=
  { s with currentIp := 0, octet := 0, foundMask := true, ipPtr := s.shifted, prev := '/' }

def finish (s : AddressScan) : Option (Nat × Nat) :=
  if s.foundMask then
    if s.shifted > 32 then none else some (s.ipPtr, cidrToBitmask s.shifted)
  else some (s.shifted, 2 ^ 32 - 1)

def scan (s : AddressScan) : CStr → Option (Nat × Nat)
  | [] => s.finish
  | c :: rest =>
    if isDigit c then (s.digit c).scan rest
    else if c = '.' then if s.octet > 255 then none else s.dot.scan rest
    else if c = '/' then if s.octet > 255 then none else s.slash.scan rest
    else if c = '*' then
      if s.dotCount = 3 ∧ rest = [] ∧ s.prev = '.' then
        some (s.currentIp * 256 % 2 ^ 64, 2 ^ 32 - 256)
      else none
    else none

end AddressScan

def isAddress (host : CStr) : Option (Nat × Nat) := AddressScan.start.scan host

example : isAddress "192.168.0.0/16".toList = some (0xc0a80000, 0xffff0000) := by decide

example : isAddress "192.168.3.*".toList = some (0xc0a80300, 0xffffff00) := by decide

end Ircd
