import GameScoring.Scoring.Configuration

/-! # Versions

A configuration that is saved becomes a version of its game. It is kept as a row, a heading and the payload
of the configuration, and the payload is read again whenever the version is used.
-/
namespace GameScoring.Store
open Scoring

/-- Versions are named by their number. -/
def versionName (number : Nat) : String := "v" ++ Text.natText number

theorem versionName_inj {m n : Nat} : versionName m = versionName n ↔ m = n := by
  rw [versionName, versionName, String.append_right_inj, Text.natText_inj]

structure Heading where
  id : String
  gameType : String
  number : Nat
  description : Option String
  createdBy : Option String
  active : Bool
deriving DecidableEq, Repr

def Heading.name (h : Heading) : String := versionName h.number

structure Row extends Heading where
  payload : Value

structure Version extends Heading where
  configuration : Configuration

def Row.read (row : Row) : Configured Version := do
  return ⟨row.toHeading, ← Configuration.ofPayload (.text row.gameType) row.payload⟩

def Version.value (v : Version) : Value :=
  .record [("id", .text v.id), ("game_type", .text v.gameType), ("version_number", .int v.number),
    ("version_name", .text v.name), ("description", .optional .text v.description),
    ("is_active", .bool v.active), ("created_by", .optional .text v.createdBy),
    ("config", v.configuration.payload)]

end GameScoring.Store
