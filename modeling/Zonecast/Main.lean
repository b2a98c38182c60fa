/-
The command line. `hash-password` prints the record of a password for the queue's credentials,
with a salt drawn anew each time.
-/
import Zonecast.Password.Record

open Zonecast

/-- How the program is called. -/
def usage : String := "usage: zonecast hash-password PASSWORD"

def main (arguments : List String) : IO UInt32 := do
  match arguments with
  | ["hash-password", password] =>
    let salt ← IO.getRandomBytes 16
    IO.println (Password.hash salt.toList password)
    return 0
  | _ =>
    IO.eprintln usage
    return 2
