import ModalNotes.Text.CaseTable

/-! Lower and upper case. A capital sigma becomes the final small sigma where it ends a word: a cased
letter stands before it and none after it, letters that case passes over not counted. -/
namespace ModalNotes.Text

def CaseRun.holds (r : CaseRun) (n : Nat) : Bool :=
  r.first ≤ n && n ≤ r.last && (n - r.first) % r.step == 0

def mapCase (runs : List CaseRun) (expansions : List (Nat × List Nat)) (c : Char) : Text :=
  match expansions.find? (·.1 == c.toNat) with
  | some (_, points) => points.map Char.ofNat
  | none =>
    match runs.find? (·.holds c.toNat) with
    | some r => [Char.ofNat (c.toNat + r.delta).toNat]
    | none => [c]

def lowerChar (c : Char) : Text := mapCase lowerRuns lowerExpansions c

def upperChar (c : Char) : Text := mapCase upperRuns upperExpansions c

def leansOnCased (s : Text) : Bool :=
  match s.dropWhile (fun c => inRanges caseIgnorableRanges c.toNat) with
  | [] => false
  | c :: _ => inRanges casedRanges c.toNat

def lowerAfter (seen : Text) : Text → Text
  | [] => []
  | c :: rest =>
    (if c = 'Σ' then [if leansOnCased seen && !leansOnCased rest then 'ς' else 'σ'] else lowerChar c)
      ++ lowerAfter (c :: seen) rest

def lower (s : Text) : Text := lowerAfter [] s

def upper (s : Text) : Text := s.flatMap upperChar

end ModalNotes.Text
