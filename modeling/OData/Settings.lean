import OData.Retry

/-! # Settings of a client -/
namespace OData

/-- What a client goes by. -/
structure Settings where
  /-- The root of the service. -/
  root : Option String
  /-- The pause between two looks at a long-running operation. -/
  pollInterval : Duration
  /-- How long to wait for a long-running operation, if not forever. -/
  waitLimit : Option Duration
  /-- How long to wait for a response. -/
  requestLimit : Duration
  /-- The headers of every request. -/
  headers : Headers
  /-- How many records a page should have at most. -/
  pageSize : Option Nat
  retry : RetryPolicy

namespace Settings

/-- The settings of a client that is told nothing. -/
def default : Settings where
  root := none
  pollInterval := .ofSeconds 5
  waitLimit := none
  requestLimit := .ofSeconds 120
  headers := NameMap.ofList
    [("Accept", "application/json"), ("OData-MaxVersion", "4.0"), ("OData-Version", "4.0")]
  pageSize := none
  retry := .default

end Settings
end OData
