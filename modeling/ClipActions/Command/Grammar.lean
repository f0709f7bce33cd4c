import ClipActions.Text.Quoted
import ClipActions.Text.Whole

/-!
Grammars of command lines: the options that a program knows and the places for its other arguments,
and what can be wrong with a command line.
-/
namespace ClipActions.Command

inductive Purpose where
  /-- It is there or not. -/
  | mark
  /-- It takes a text. -/
  | text
  /-- It takes a whole number. -/
  | whole
  /-- It shows the help of its program. -/
  | help
  /-- It shows a version. -/
  | version (v : Text)
  deriving DecidableEq, Repr

/-- An option: its spellings, and what is said about it. -/
structure Flag where
  names : List Text
  purpose : Purpose := .mark
  /-- What its value is called. -/
  value : Text := []
  about : Text
  deriving DecidableEq, Repr

namespace Flag

def takesValue (f : Flag) : Bool := f.purpose = .text || f.purpose = .whole

def label (f : Flag) : Text := Text.joinWith "/" f.names

def help : Flag where
  names := ["-h", "--help"]
  purpose := .help
  about := "show this help message and exit"

end Flag

/-- A place for arguments that are no options. -/
inductive Place where
  /-- One argument. -/
  | one
  /-- Any number of arguments. -/
  | many
  /-- A command, and all that follows it. -/
  | command
  deriving DecidableEq, Repr

structure Slot where
  name : Text
  place : Place
  about : Text := []
  deriving DecidableEq, Repr

/-- A grammar: the name of the program in messages, its options and its places in order. -/
structure Grammar where
  program : Text
  flags : List Flag
  slots : List Slot := []
  deriving DecidableEq, Repr

inductive Fault where
  | ambiguous (token : Text) (matching : List Text)
  | ignoredValue (flag value : Text)
  | valueMissing (flag : Text)
  | notWhole (flag value : Text)
  | missing (names : List Text)
  | unknownCommand (slot value : Text) (known : List Text)
  | unrecognized (tokens : List Text)
  deriving DecidableEq, Repr

namespace Fault

def message : Fault → Text
  | ambiguous token matching =>
    "ambiguous option: " ++ token ++ " could match " ++ Text.joinWith ", " matching
  | ignoredValue flag value =>
    "argument " ++ flag ++ ": ignored explicit argument " ++ value.quoted
  | valueMissing flag => "argument " ++ flag ++ ": expected one argument"
  | notWhole flag value => "argument " ++ flag ++ ": invalid int value: " ++ value.quoted
  | missing names => "the following arguments are required: " ++ Text.joinWith ", " names
  | unknownCommand slot value known =>
    "argument " ++ slot ++ ": invalid choice: " ++ value.quoted ++ " (choose from " ++
      Text.joinWith ", " (known.map Text.quoted) ++ ")"
  | unrecognized tokens => "unrecognized arguments: " ++ Text.joinWith " " tokens

end Fault

/-- Why a command line is not followed: a fault in it, or a wish for help or for the version. -/
inductive Stop where
  | fault (program : Text) (f : Fault)
  | help (g : Grammar)
  | version (v : Text)
  deriving DecidableEq, Repr

end ClipActions.Command
