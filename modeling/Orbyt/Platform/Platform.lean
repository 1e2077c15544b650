/-
  Orbyt.Platform.Platform — the platform as a machine

  Which program answers which entry point, what the ledger may do on its own, and
  the machine these make.
-/
import Orbyt.Lib.Interleave
import Orbyt.Platform.AdminRoutes
import Orbyt.Platform.CashoutService

namespace Orbyt

open Interleave
open ValidatedLedger
open Function (update)

/-! ## §1. Entry points. -/

def body (S : Setting) : Entry → Program Unit
  | .settle t => discard (SettlementWorker.processSettlement t)
  | .burn r => discard (CashoutWorker.processBurn r)
  | .createRemittance form => discard (CashinService.createRemittance S form)
  | .cashinReceived t reviewer =>
      CashinService.onTransaction t (fun _ => CashinService.markCashinReceived t reviewer)
  | .cashinFailed t reviewer reason =>
      CashinService.onTransaction t (fun _ => CashinService.markCashinFailed t reviewer reason)
  | .expireStaleCashins => CashinService.expireStaleCashins
  | .settlementRetry t => CashinService.settlementRetry t
  | .amlFlag t flagged => CashinService.setAmlFlag t flagged
  | .createRequest form => discard (CashoutService.createRequest form)
  | .approve r admin => CashoutService.onRequest r (fun req => CashoutService.approve r req admin)
  | .reject r admin reason =>
      CashoutService.onRequest r (fun _ => CashoutService.reject r admin reason)
  | .reconcile r => CashoutService.onRequest r (CashoutService.reconcile r)
  | .sweepUnpublished => CashoutService.sweepUnpublished
  | .office e => Office.body S e

/-! ## §2. The ledger on its own, and KYC. -/

inductive Env where
  /-- The next ledger closes with these transactions and results. -/
  | closeLedger (txs : List (Nat × TxCode))
  /-- The server gains or loses one ledger of its history. -/
  | hold (n : Nat) (held : Bool)
  | wait (dt : Nat)
  | office (v : Directory.Env)
  deriving Repr, DecidableEq

/-- Only a submitted, well-formed blob inside its window can be included, once. -/
def World.includable (s : World) (h : Nat) : Bool :=
  s.handed h && !s.malformed h && (s.ledger.included h).isNone &&
    (s.blobs[h]?).any (fun b => decide (b.window.admits (s.ledger.validated + 1)))

def World.env : Env → World → Option World
  | .closeLedger txs, s =>
      if txs.all (fun p => s.includable p.1) then
        some { s with ledger :=
          { validated := s.ledger.validated + 1
            included := fun h => (s.ledger.included h).or
              ((txs.lookup h).map (fun code => (s.ledger.validated + 1, code)))
            held := s.ledger.held } }
      else none
  | .hold n held, s =>
      some { s with ledger := { s.ledger with held := update s.ledger.held n held } }
  | .wait dt, s => some { s with clock := s.clock + dt }
  | .office v, s =>
      (s.office.directory.env v).map (fun directory =>
        { s with office := { s.office with directory := directory } })

/-! ## §3. The machine. -/

/-- A job or request that ends, by itself or not, loses its connection: its open
transaction is rolled back and its locks are free. -/
@[reducible] def platform (S : Setting) : Machine where
  sig := calls
  Exn := Exn
  Session := Session
  World := World
  Choice := Choice
  Entry := Entry
  Env := Env
  body := body S
  start := Session.start
  exec := exec S
  close := World.releaseAll
  env := World.env
  next := World.nextTid
  spawn := fun s => { s with nextTid := s.nextTid + 1 }

/-! ## §4. Scripted runs. -/

/-- Days of a thousand microseconds, months of thirty days. -/
def shortDays : Calendar where
  day := fun τ => τ / 1000
  dayStartUtc := fun d => d * 1000
  dayStartUtc_le := fun _ _ => (Nat.le_div_iff_mul_le (by decide)).symm
  month := fun d => d / 30
  firstOfMonth := fun d => d / 30 * 30
  firstOfMonth_le := fun _ _ => by omega

/-- Punctual workers, signed blobs that expire, one ledger per consultation. -/
def Setting.usual : Setting where
  calendar := shortDays
  tier := ⟨1000000, 1000000⟩
  registered := fun _ => true
  directory := ⟨fun _ => none, false, false, false⟩
  minTick := 1
  fixedTier := true
  punctual := true
  carriesLastLedger := true
  oneLedgerView := true
  freshLock := false
  quietPublishFailure := false
  sameHashReconcile := false

/-- A platform as it is seeded, on a ledger whose whole history is held. -/
def World.empty : World := World.initial 0 100 (fun _ => true)

variable (S : Setting)

/-- The next calls of `i` answer, with these values. -/
def answering (i : Nat) (vs : List Value) : List (Label (platform S)) :=
  vs.map (fun v => .call i ⟨0, .returns, v⟩)

/-- The next `n` calls of `i` answer. -/
def steps (i n : Nat) : List (Label (platform S)) := answering S i (List.replicate n .unit)

/-- The next call of `i` raises without effect. -/
def raising (i : Nat) (e : Exn) : List (Label (platform S)) := [.call i ⟨0, .raises e, .unit⟩]

/-- The next call of `i` takes effect and raises. -/
def losing (i : Nat) (e : Exn) : List (Label (platform S)) := [.call i ⟨0, .raisesAfter e, .unit⟩]

def closing (txs : List (Nat × TxCode)) : List (Label (platform S)) := [.env (.closeLedger txs)]

def waiting (dt : Nat) : List (Label (platform S)) := [.env (.wait dt)]

/-- The ledger closes `n` times with nothing in it. -/
def idling (n : Nat) : List (Label (platform S)) := List.replicate n (.env (.closeLedger []))

/-- A send of `form` at `quote` to `recipient`, as program `i`, from start to end. -/
def sending (i : Nat) (form : SendForm) (recipient : Nat) (quote : Quote) :
    List (Label (platform S)) :=
  .start (.createRemittance form) ::
    answering S i [.unit, .payee (some ⟨some recipient, .USD, ""⟩), .quote quote,
      .tier (some S.tier)]
    ++ steps S i 4 ++ answering S i [.card "4242" false] ++ steps S i 3 ++ [.stop i]

/-- The confirmation of the cash-in of `t`, which publishes its settlement. -/
def confirming (i t : Nat) : List (Label (platform S)) :=
  .start (.cashinReceived t none) :: steps S i 5 ++ [.stop i]

/-- A settlement up to the hand-over of the payment `h`, to a recipient without a wallet;
the trust line's blob is `h - 1`. -/
def settlingFirst (i t h last : Nat) : List (Label (platform S)) :=
  .start (.settle t) :: steps S i 5 ++ answering S i [.nat 0] ++ steps S i 4
    ++ answering S i [.lastLedger (some last), .unit] ++ closing S [(h - 1, .tesSUCCESS)]
    ++ steps S i 6 ++ answering S i [.lastLedger (some last)] ++ steps S i 4

end Orbyt
