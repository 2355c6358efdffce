import ValidatorDays.Work.Program
/-! Connections to the database: one for writing, one for reading what may lag behind. -/
namespace ValidatorDays

def urlWithName (url name : String) : String :=
  url ++ (if url.toList.contains '?' then "&" else "?") ++ "application_name=" ++ name

structure Pools where
  writer : String
  reader : String
  deriving DecidableEq, Repr

namespace Pools

def connectTo (url name : String) : Program Unit :=
  (Program.ask (.connect (urlWithName url name)) Program.ofDatabase).mapFailure
    (.asReportWithin ("failed to connect to db as " ++ name))

def connect (url readerUrl name : String) : Program Pools := do
  connectTo url name
  if readerUrl ≠ url then connectTo readerUrl name
  return ⟨url, readerUrl⟩

end Pools
end ValidatorDays
