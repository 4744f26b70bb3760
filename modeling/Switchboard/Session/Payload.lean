import Switchboard.Log
import Switchboard.Text.Utf8

/-!
Payloads shared by everyone they are delivered to. A payload is made with one handle; each further
handle is counted in and each that is given back is counted out, and with the last one the payload
is released. The bytes never change. A handle given back once too often is reported.
-/

namespace Switchboard.Session

structure Payload where
  bytes : Bytes
  handles : Nat := 1
  released : Bool := false
  deriving DecidableEq, Repr, Inhabited

namespace Payload

def retain (p : Payload) : Payload := { p with handles := p.handles + 1 }

/-- Gives a handle back; nothing if there is none to give back. -/
def release? (p : Payload) : Option Payload :=
  match p.handles with
  | 0 => none
  | 1 => some { p with handles := 0, released := true }
  | n + 2 => some { p with handles := n + 1 }

/-- What is reported when a handle is given back and none is out. -/
def overReleased (p : Payload) : LogLine :=
  failure s!"payload of {p.bytes.length} bytes released more times than it was retained"

/-- A short description, with the number of bytes and of handles. -/
def describe (p : Payload) : String :=
  s!"PayloadRef \x7b len: {p.bytes.length}, refs: {p.handles} \x7d"

end Payload

/-- A handle on a payload of a pool. -/
abbrev Handle := Nat

/-- All payloads of a node, numbered as they are made, and what was reported of them. -/
structure Pool where
  payloads : Array Payload := #[]
  faults : List LogLine := []
  deriving DecidableEq, Repr, Inhabited

namespace Pool

def create (pool : Pool) (bytes : Bytes) : Handle × Pool :=
  (pool.payloads.size, { pool with payloads := pool.payloads.push { bytes } })

def get? (pool : Pool) (h : Handle) : Option Payload := pool.payloads[h]?

def bytes (pool : Pool) (h : Handle) : Bytes :=
  match pool.get? h with
  | some p => p.bytes
  | none => []

def retain (pool : Pool) (h : Handle) : Pool :=
  { pool with payloads := pool.payloads.modify h Payload.retain }

def release (pool : Pool) (h : Handle) : Pool where
  payloads := pool.payloads.modify h fun p => p.release?.getD p
  faults :=
    match pool.get? h with
    | some p => if p.release?.isNone then pool.faults ++ [p.overReleased] else pool.faults
    | none => pool.faults

def releaseAll (pool : Pool) (hs : List Handle) : Pool := hs.foldl release pool

end Pool

end Switchboard.Session
