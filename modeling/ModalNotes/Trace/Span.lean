import ModalNotes.Trace.Entry

/-! Spans: blocks of work that log how they ended. Time is not modelled, so a duration is written as a
star. -/
namespace ModalNotes

structure Span where
  name : Text
  logger : Text
  /-- An empty component is left out of the lines. -/
  component : Text := []
  fields : Table Text Text := {}
  deriving DecidableEq, Repr

namespace Span

def make (logger name component : Text) (data : List (Text × Value)) : Span :=
  ⟨name, logger, component, Table.ofList (data.map fun (key, value) => (key, value.plain))⟩

def add (s : Span) (key : Text) (value : Value) : Span :=
  { s with fields := s.fields.put key value.plain }

def line (s : Span) (level : Int) (head : Text) (extra : List (Text × Text)) : Entry :=
  let own := (Table.ofList [("span".toList, s.name)]).putAll s.fields.entries
  let marked := if s.component.isEmpty then own else own.put "component".toList s.component
  ⟨level, s.logger, head, marked.putAll extra⟩

def ended (s : Span) : Entry :=
  s.line Level.debug "span::end".toList [("elapsed_ms".toList, "*".toList)]

def failed (s : Span) (reason : Text) : Entry :=
  s.line Level.error "span::fail".toList [("reason".toList, reason)]

def cancelled (s : Span) (reason : Text) : Entry :=
  s.line Level.warning "span::cancel".toList
    (if reason.isEmpty then [] else [("reason".toList, reason)])

end Span

end ModalNotes
