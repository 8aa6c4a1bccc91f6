import Observatory.Probe.Report

/-!
# Capturing fixtures

How the probe records a transaction for offline tests (`main.rs` of the probe): the response
as it came, the report on it, and metadata.  The files are written one after the other, and a
capture that stops leaves those it has written.  What the endpoint answers and the time are
parameters; errors of the file system are left out.

* `capture` — the files, and how the capture ended.
-/

namespace Observatory

namespace Probe

/-- `RpcClient::call` on the endpoint, by method and parameters. -/
abbrev ProbeCall : Type := String → Json → Except String Json

/-- `RpcClient::get_transaction` -/
def ProbeCall.getTransaction (call : ProbeCall) (txHash : String) : Except String Json :=
  call "getTransaction" (.object [("hash", .string txHash)])

/-- The network an endpoint serves, if it says so. -/
def networkPassphrase (call : ProbeCall) : Option String :=
  ((call "getNetwork" (.object [])).toOption).bind (fun result => result.getStr "passphrase")

end Probe

end Observatory
