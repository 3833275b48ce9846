import Ircd.Text.CString
import Mathlib.Data.List.TakeWhile

/-! `fileio.c`: buffered reading and writing of a file, line by line.

A file is the list of its bytes. `fbgets` fills a buffer of `len` bytes, so that a line
that is too long comes in pieces; what follows a NUL in the buffer is lost to the
functions that take it for a string.
-/

set_option autoImplicit false

namespace Ircd

def lineSize : Nat := 512

/-- `strchr`, with the string cut in two around the character that it finds. -/
def cutAt (c : Char) : CStr → Option (CStr × CStr)
  | [] => none
  | d :: rest =>
    if d = c then some ([], rest)
    else (cutAt c rest).map fun (before, after) => (d :: before, after)

/-- The loop of `fbgets` with room for `n` more bytes: the bytes put into the buffer and
the rest of the file. -/
def fbgetsLoop : Nat → CStr → CStr × CStr
  | 0, file => ([], file)
  | _ + 1, [] => ([], [])
  | n + 1, c :: rest =>
    if c = '\n' then (['\n'], rest)
    else if c = '\r' then
      -- a CR ends the line as an LF does, and takes an LF with it
      match rest with
      | '\n' :: rest => (['\n'], rest)
      | rest => (['\n'], rest)
    else
      let (line, rest) := fbgetsLoop n rest
      (c :: line, rest)

def fbgets (len : Nat) (file : CStr) : Option (CStr × CStr) :=
  if file = [] then none else some (fbgetsLoop (len - 1) file)

/-- The strings that repeated calls of `fbgets` leave in the buffer. -/
def bufferLines (len : Nat) : Nat → CStr → List CStr
  | 0, _ => []
  | fuel + 1, file =>
    match fbgets len file with
    | none => []
    | some (line, rest) => cString line :: bufferLines len fuel rest

/-- Every turn takes a byte at least, so as many turns as there are bytes see the end. -/
def fileLines (len : Nat) (file : CStr) : List CStr := bufferLines len file.length file

/-- What one `write` returns: an error, or how much of the buffer it has taken. -/
inductive WriteResult where
  | failed
  | wrote (n : Nat)
  deriving DecidableEq, Repr

def WriteResult.taken (r : WriteResult) (str : CStr) : CStr :=
  match r with
  | .failed => []
  | .wrote n => str.take n

def WriteResult.Complete (r : WriteResult) (str : CStr) : Prop :=
  match r with
  | .failed => False
  | .wrote n => str.length ≤ n

instance (r : WriteResult) (str : CStr) : Decidable (r.Complete str) := by
  unfold WriteResult.Complete
  cases r <;> infer_instance

theorem fbgetsLoop_length (n : Nat) (file : CStr) :
    (fbgetsLoop n file).1.length + (fbgetsLoop n file).2.length ≤ file.length := by
  induction n generalizing file with
  | zero => simp [fbgetsLoop]
  | succ n ih =>
    cases file with
    | nil => simp [fbgetsLoop]
    | cons c rest =>
      simp only [fbgetsLoop]
      split
      · simp only [List.length_cons, List.length_nil]
        omega
      split
      · split
        · simp only [List.length_cons, List.length_nil]
          omega
        · simp only [List.length_cons, List.length_nil]
          omega
      · have rest := ih rest
        simp only [List.length_cons]
        omega

theorem cString_length_le (buf : CStr) : (cString buf).length ≤ buf.length :=
  (List.takeWhile_prefix _).length_le

theorem bufferLines_length (len fuel : Nat) (file : CStr) :
    ((bufferLines len fuel file).map List.length).sum ≤ file.length := by
  induction fuel generalizing file with
  | zero => simp [bufferLines]
  | succ fuel ih =>
    simp only [bufferLines, fbgets]
    split
    · simp
    · next line rest read =>
      split at read
      · cases read
      · have parts := fbgetsLoop_length (len - 1) file
        rw [Option.some.inj read] at parts
        simp only at parts
        have later := ih rest
        have cut := cString_length_le line
        simp only [List.map_cons, List.sum_cons]
        omega

theorem fileLines_length (len : Nat) (file : CStr) :
    ((fileLines len file).map List.length).sum ≤ file.length :=
  bufferLines_length len _ file

end Ircd
