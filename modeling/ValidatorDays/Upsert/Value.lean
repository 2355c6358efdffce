import ValidatorDays.Amount.Basic
import ValidatorDays.Chain.Day

namespace ValidatorDays

inductive SqlValue where
  | int4 (n : Int)
  | int8 (n : Int)
  | numeric (d : Decimal)
  | text (s : String)
  | time (t : Instant)
  deriving Repr

namespace SqlValue

def ofDay (d : Day) : SqlValue := .int4 d.number
def ofGwei (a : Gwei) : SqlValue := .int8 a.count
def ofWei (a : Wei) : SqlValue := .numeric a.toDecimal

end SqlValue

abbrev Row := List SqlValue

end ValidatorDays
