/-
  EcuTelemetry.Firmware.World

  What the agent gets from outside: the clocks, the sockets, the sensor files,
  the plant.  Every call has its own stream of answers; a run is any run over
  any such streams.
-/

import EcuTelemetry.Firmware.Physics

namespace EcuTelemetry.Firmware

abbrev Stream (α : Type) := ℕ → α

/-- The rest of a stream. -/
def Stream.tail {α : Type} (s : Stream α) : Stream α := fun n => s (n + 1)

/-- A socket call.  One that `EINTR` interrupts is made again and has no entry. -/
inductive Io (α : Type)
  | done (a : α)
  | wouldBlock
  | error (why : List Byte)
deriving DecidableEq, Repr

/-- `connect`. -/
inductive Connect
  | done
  | inProgress
  | error (why : List Byte)
deriving DecidableEq, Repr

/-- `select`; a timeout is `ready false false`. -/
inductive Select
  | ready (readable writable : Bool)
  | interrupted
  | error (why : List Byte)
deriving DecidableEq, Repr

structure World where
  /-- `g_stop` -/
  stop : Stream Bool
  /-- `now()` -/
  clock : Stream ℚ
  unixMillis : Stream UInt64
  /-- what the plant measures in a step -/
  plant : Stream PlantReadings
  /-- `readDouble` on a path -/
  readDouble : Stream (List Byte → Option F64)
  resolve : Stream Bool
  /-- `socket`: a descriptor, or an error -/
  socket : Stream (Except (List Byte) ℕ)
  connect : Stream Connect
  /-- `getsockopt(SO_ERROR)`: the error, if any -/
  soError : Stream (Option (List Byte))
  select : Stream Select
  /-- `recv` in one `tcpRead`; after the last entry there is nothing to read -/
  recv : Stream (List (Io (List Byte)))
  /-- `send` in one `tcpFlush`; after the last entry it would block -/
  send : Stream (List (Io ℕ))
  /-- `sendto`: an error that is logged, if any -/
  sendto : Stream (Option (List Byte))
  /-- `saveConfigFile`: the error, if any -/
  save : Stream (Option (List Byte))

/-- `w'` comes after `w`: its clock goes on from that of `w`. -/
def World.Leads (w w' : World) : Prop := ∃ k, w'.clock = fun n => w.clock (n + k)

/-- A world in which nothing comes in and a second goes by from one look at the
    clock to the next. -/
def World.idle : World where
  stop _ := false
  clock n := n
  unixMillis _ := 0
  plant _ :=
    { rpm := F32.zero, tempC := F32.zero, currentA := F32.zero, voltageV := F32.zero
      vibrationG := F32.zero, speedKph := F32.zero, lat := ⟨0⟩, lon := ⟨0⟩, still := true }
  readDouble _ _ := none
  resolve _ := true
  socket n := .ok n
  connect _ := .inProgress
  soError _ := none
  select _ := .ready false false
  recv _ := []
  send _ := []
  sendto _ := none
  save _ := none

end EcuTelemetry.Firmware
