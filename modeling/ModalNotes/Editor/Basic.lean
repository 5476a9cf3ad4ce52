import ModalNotes.Buffer.Change
import ModalNotes.Buffer.Find
import ModalNotes.Buffer.Motion
import ModalNotes.Buffer.Select
import ModalNotes.Keymap.Standard

/-! Editors: a buffer with a mode, a command that waits for its next key, the input typed so far and
the remembered column. Horizontal motions record the column, vertical ones return to it. -/
namespace ModalNotes

structure Pending where
  digits : List Nat := []
  typed : Text := []
  deriving DecidableEq, Repr

namespace Pending

def isEmpty (p : Pending) : Bool := p.digits.isEmpty && p.typed.isEmpty

def text (p : Pending) : Text := p.digits.flatMap Text.ofNat ++ p.typed

end Pending

/-- The number that digits stand for; no digits stand for one. -/
def countOf (digits : List Int) : Int :=
  if digits.isEmpty then 1 else digits.foldl (fun count digit => count * 10 + digit) 0

def Pending.count (p : Pending) : Int := countOf (p.digits.map Int.ofNat)

structure Editor where
  buffer : Buffer
  registry : Registry Action
  mode : Mode := .normal
  command : Command := .none
  pending : Pending := {}
  column : Option Nat := none
  deriving DecidableEq, Repr

namespace Editor

def onBuffer {α : Type} (m : Run Buffer α) : Run Editor α :=
  Run.on (·.buffer) (fun buffer e => { e with buffer }) m

def label (e : Editor) : Text := Text.stripRight (e.mode.label ++ ' ' :: e.pending.text)

def resetPending : Run Editor Unit := Run.modify fun e => { e with command := .none, pending := {} }

def repeated (count : Int) (m : Run Editor Unit) : Run Editor Int := do
  Run.times count.toNat m
  if 1 < count then
    let line := "repeated action ".toList ++ Text.ofInt count ++ " times".toList
    Run.log { level := Level.debug, logger := Logger.repetition, head := line }
  pure count

def recordColumn : Run Editor Unit :=
  Run.modify fun e => { e with column := some e.buffer.cursor.col }

def restoreColumn : Run Editor Unit := do
  let e ← Run.get
  let c := e.buffer.cursor
  onBuffer (Buffer.jump c.row (e.column.getD c.col))

def moveOnce (m : Motion) : Run Editor Unit := do
  let _ ← onBuffer (Buffer.move m)

def move (m : Motion) (count : Int) : Run Editor Int := do
  if m.isVertical then
    let e ← Run.get
    if e.column.isNone then recordColumn
    let count ← repeated count (moveOnce m)
    restoreColumn
    pure count
  else
    let count ← repeated count (moveOnce m)
    recordColumn
    pure count

end Editor

end ModalNotes
