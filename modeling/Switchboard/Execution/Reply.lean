import Switchboard.Crash
import Switchboard.Json.Reader
import Switchboard.Text.Class

/-! What comes back from an integration, and what a call makes of it. -/
namespace Switchboard

/-- A time span in milliseconds, in seconds from one second on. -/
def spanText (ms : Nat) : String :=
  if ms = 0 then "0ns"
  else if ms < 1000 then toString ms ++ "ms"
  else
    let digits := (Nat.toDigits 10 (1000 + ms % 1000)).drop 1
    let decimals := (digits.reverse.dropWhile (· = '0')).reverse
    toString (ms / 1000) ++ (if decimals = [] then "" else "." ++ String.ofList decimals) ++ "s"

/-- Why there is no response. -/
inductive TransportError where
  | timeout (ms : Nat)
  | network (reason : String)
  | invalidMethod (method : String)
  deriving DecidableEq

def TransportError.message : TransportError → String
  | timeout ms => "Request timed out after " ++ spanText ms
  | network reason => "Network error: " ++ reason
  | invalidMethod method => "Invalid HTTP method '" ++ method ++ "'"

structure Response where
  code : Nat
  reason : Option String
  body : String

inductive Reply where
  | response (r : Response)
  | failed (e : TransportError)
  | crashed (c : Crash)

/-- Why a call has no data. -/
inductive CallError where
  | transport (e : TransportError)
  | refused (r : Response)
  | notJson (code : Nat) (e : Json.ReadError)

namespace CallError

def code? : CallError → Option Nat
  | transport _ => none
  | refused r => some r.code
  | notJson code _ => some code

/-- How many characters of a body an error quotes. -/
def maxQuote : Nat := 200

def message : CallError → String
  | transport e => e.message
  | refused r =>
    let quote := (Text.trim r.body.toList).take maxQuote
    "HTTP " ++ toString r.code ++ (r.reason.map (" " ++ ·)).getD "" ++
      if quote = [] then "" else ": " ++ String.ofList quote
  | notJson _ e => "Invalid JSON response: " ++ e.message

end CallError

/-- Codes of success. -/
def Response.isSuccess (r : Response) : Bool := 200 ≤ r.code && r.code < 300

/-- The data of a response. A blank body is null. -/
def Response.data (r : Response) : Except CallError Json :=
  if !r.isSuccess then .error (.refused r)
  else if Text.trim r.body.toList = [] then .ok .null
  else (Json.parse r.body).mapError (.notJson r.code)

example : spanText 1500 = "1.5s" := by decide +kernel
example : spanText 60000 = "60s" := by decide +kernel

end Switchboard
