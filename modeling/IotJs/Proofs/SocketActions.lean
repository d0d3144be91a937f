import IotJs.Proofs.SocketWp

/-!
# `IotJs.Proofs.SocketActions`: a `Socket` as a set of actions

The code of a `Socket` changes its state in a few ways only, whoever called it and however
deep. `Action` lists them: each is what a stretch of code does between two points at which
an invariant may be asked for, with what the code knows there. `SocketRespects.lean` shows
that every call of the machine is made of them, so that a property of runs has to be proved
of the actions alone.

Some stretches are one action because the state in their middle is no state that an
invariant could describe: a chunk that has left the queue and is not in flight yet, or a
stream that has ended and whose handle is not shut down yet (`Hands`, `Flush`, `Finish`).

A property may hold of a call and not of each of its actions. So the actions that such
properties need to see have a kind of their own (`Kind`).

`Base` collects what is true of every socket in any surroundings, and `Mono` what never goes
back.
-/

set_option autoImplicit false

namespace IotJs

open Reentrant

/-- History entries that no property reads. -/
def SocketObs.silent : SocketObs → Bool
  | .note (.returned _) | .note .endCalled | .readNote _ => true
  | .event .drain | .event (.data _) | .event .readable | .event .pause => true
  | .event (.lookup none) | .event .connect | .event .timeout | .event .close => true
  | .event .connection => true
  | _ => false

namespace Socket

/-- The surroundings of a socket. -/
abbrev Surroundings := Env Socket SocketYield SocketNative Call

/-- The kinds of actions. -/
inductive Kind where
  | common
  /-- 'finish' of a stream that had nothing in flight -/
  | finish
  /-- a native write has completed -/
  | complete
  /-- a native write has completed, and 'finish' follows -/
  | completeFinish
  | eof
  /-- data is buffered, or a native shutdown has completed: the native side alone does it -/
  | native
  /-- a write is rejected -/
  | reject
  /-- an attempt to connect, up to the native connect -/
  | connecting
deriving DecidableEq

/-! ### States in the middle of an action -/

/-- The chunk is given to the native write. -/
def handed (timer : Option Timer) (req : WriteReq) (s : Socket) : Socket :=
  { s with
    _timer := timer
    _writableState :=
      { s._writableState with writing := true, writingLength := req.chunk.length }
    log := s.log ++ [.native .write s.handleStatus] }

/-- The native write has completed. -/
def completed (req : WriteReq) (status : Int) (s : Socket) : Socket :=
  { s with
    writes := s.writes.tail
    log := s.log ++ [.wrote req status]
    _writableState :=
      { s._writableState with
        length := s._writableState.length - s._writableState.writingLength
        writing := false
        writingLength := 0 } }

/-- The connection is established. -/
def established (timer : Option Timer) (s : Socket) : Socket :=
  { s with
    _socketState := { s._socketState with connecting := false, connected := true }
    _timer := timer
    _writableState := { s._writableState with ready := true } }

/-- 'finish' is emitted. -/
def finishing (s : Socket) : Socket :=
  { s with
    _writableState := { s._writableState with ended := true }
    log := s.log ++ [.event .finish] }

/-- `destroy` closes the handle at once. -/
def closeNow (s : Socket) : Socket :=
  { s with
    log := s.log ++ [.destroyCalled] ++ [.native .close s.handleStatus]
    closing := s.closing || s._handle.any (!·.closed)
    _handle := s._handle.map fun handle => { handle with closed := true }
    _server := false
    _socketState := { s._socketState with destroyed := true } }

/-- A block waits to be read. -/
def pushed (data : Bytes) (s : Socket) : Socket :=
  { s with
    _readableState :=
      { s._readableState with
        length := s._readableState.length + data.length
        buffer := s._readableState.buffer ++ [data] } }

/-- The stream meets EOF. -/
def eofMet (s : Socket) : Socket :=
  { s with
    _readableState := { s._readableState with ended := true }
    log := s.log ++ [.readNote .eof] }

/-! ### Composite actions -/

section
variable (P : Platform) (E : Surroundings)

/-- `doWrite` on a stream that is idle. -/
inductive Hands (req : WriteReq) (s : Socket) : Socket → Prop
  | sent (timer : Option Timer) (hans : E.answer .write (handed timer req s) 0) :
      Hands req s { handed timer req s with writes := s.writes ++ [req] }
  | refused (timer : Option Timer) (err : Int) (herr : err ≠ 0)
      (hans : E.answer .write (handed timer req s) err) :
      Hands req s { handed timer req s with
        log := s.log ++ [.native .write s.handleStatus] ++ [.refused req err] }

/-- `writeBuffered` up to the first event, where 'finish' is not due. -/
inductive Flush (s : Socket) : Socket → Prop
  | busy (hw : s._writableState.writing = true) : Flush s s
  | idle (hw : s._writableState.writing = false) (hb : s._writableState.buffer = [])
      (he : s._writableState.ending = true → s._writableState.ended = true) : Flush s s
  | next {req : WriteReq} {rest : List WriteReq} {t : Socket}
      (hw : s._writableState.writing = false) (hb : s._writableState.buffer = req :: rest)
      (h : Hands E req { s with _writableState := { s._writableState with buffer := rest } } t) :
      Flush s t

/-- `emitFinish` up to the listeners of the application, where nothing throws. -/
inductive Finish (s : Socket) : Socket → Prop
  | close (timer : Option Timer) (hr : s._socketState.readable = false ∨
        s._readableState.ended = true) :
      Finish s (closeNow { finishing s with _timer := timer })
  | shutdown (hr : s._readableState.ended = false) :
      Finish s
        { finishing s with
          log := s.log ++ [.event .finish] ++ [.native .shutdown s.handleStatus]
          shutdowns := s.shutdowns + 1 }
  | refused (err : Int) (herr : err ≠ 0) (hr : s._readableState.ended = false)
      (hans : E.answer .shutdown { finishing s with
        log := s.log ++ [.event .finish] ++ [.native .shutdown s.handleStatus] } err) :
      Finish s
        { finishing s with
          log := s.log ++ [.event .finish] ++ [.native .shutdown s.handleStatus] }

/-- The calls that write a chunk, with the callback that they give to `write`. -/
def Call.Writes (callback : Option Callback) : Call → Prop
  | .write _ callback' => callback' = callback
  | .end_ data _ => data.isSome = true ∧ callback = none
  | _ => False

/-- Why an 'error' is emitted: a call, and what it found. -/
inductive ErrorCause : Prop
  | rejected {i : Call} {callback : Option Callback} {s : Socket} (hi : i.Writes callback)
      (he : s._writableState.ended = true)
      (hcall : E.call i s)
  | connect {err : Int} {s : Socket} (herr : err ≠ 0) (hcall : E.call (.afterConnect err) s)
  | read {nread : Int} {s : Socket} (hcall : E.call (.onread (.error nread)) s)
  | push {buffer : Bytes} {s : Socket} (he : s._readableState.ended = true)
      (hcall : E.call (.onread (.data buffer)) s)

/-- A connection is established: what comes before `writeBuffered`. -/
inductive Establishes (s : Socket) : Socket → Prop
  | connected (timer : Option Timer) (h : 0 < s.connects)
      (hd : s._socketState.destroyed = false) :
      Establishes s (established timer { s with connects := s.connects - 1 })
  | accepted (timer : Option Timer) (h : s.accepting = true) :
      Establishes s (established timer { s with accepting := false })

/-- 'finish' is due in `u`, where nothing waits to be written. -/
structure FinishDue (u : Socket) : Prop where
  ending : u._writableState.ending = true
  ended : u._writableState.ended = false
  writing : u._writableState.writing = false
  buffer : u._writableState.buffer = []

/-- What the code of a socket does between two points at which an invariant holds. -/
inductive Action : Kind → Socket → Socket → Prop
  -- what no property reads
  | timer {s : Socket} (timer : Option Timer) (timeout : Int) (now : Nat) :
      Action .common s { s with _timer := timer, _timeout := timeout, now := now }
  | host {s : Socket} (host : Host) : Action .common s { s with _host := host }
  | errorListener {s : Socket} (present : Bool) :
      Action .common s { s with errorListener := present }
  | onclose {s : Socket} : Action .common s { s with closing := false }
  | needDrain {s : Socket} (needDrain : Bool) :
      Action .common s
        { s with _writableState := { s._writableState with needDrain := needDrain } }
  | silent {s : Socket} {o : SocketObs} (ho : o.silent = true) :
      Action .common s { s with log := s.log ++ [o] }
  | error {s : Socket} {message : String} (h : ErrorCause E) :
      Action .common s { s with log := s.log ++ [.event (.error message)] }
  -- `write`
  | queue {s : Socket} (req : WriteReq) (he : s._writableState.ended = false)
      (hb : (s._writableState.ready = false ∨ s._writableState.writing = true) ∨
        ¬ s._writableState.buffer = []) :
      Action .common s
        { s with
          _writableState :=
            { s._writableState with
              length := s._writableState.length + req.chunk.length
              buffer := s._writableState.buffer ++ [req] }
          log := s.log ++ [.note (.accepted req)] }
  | write {s t : Socket} (req : WriteReq) (he : s._writableState.ended = false)
      (hr : s._writableState.ready = true) (hw : s._writableState.writing = false)
      (hb : s._writableState.buffer = [])
      (h : Hands E req
        { s with
          _writableState :=
            { s._writableState with length := s._writableState.length + req.chunk.length }
          log := s.log ++ [.note (.accepted req)] } t) : Action .common s t
  | reject {s : Socket} (callback : Option Callback) (he : s._writableState.ended = true) :
      Action .reject s { s with log := s.log ++ [.note (.rejected callback)] }
  | callBack {s : Socket} (callback : Callback) :
      Action .reject s { s with ticks := s.ticks ++ [.writable (.callback callback)] }
  -- `end`
  | endIdle {s : Socket} (hacc : s.accepting = false) (he : s._writableState.ending = false)
      (hw : s._writableState.writing = false) (hb : s._writableState.buffer = []) :
      Action .common s
        { s with
          _writableState := { s._writableState with ending := true }
          ticks := s.ticks ++ [.writable .emitFinish]
          log := s.log ++ [.note .endReturned]
          _socketState := { s._socketState with writable := false } }
  | endBusy {s : Socket} (hacc : s.accepting = false) (he : s._writableState.ending = false)
      (hb : ¬ (s._writableState.writing = false ∧ s._writableState.buffer = [])) :
      Action .common s
        { s with
          _writableState := { s._writableState with ending := true }
          log := s.log ++ [.note .endReturned]
          _socketState := { s._socketState with writable := false } }
  | endAgain {s : Socket} (he : s._writableState.ending = true) :
      Action .common s
        { s with
          log := s.log ++ [.note .endReturned]
          _socketState := { s._socketState with writable := false } }
  -- `destroy` and `destroySoon`
  | destroyAgain {s : Socket} (hd : s._socketState.destroyed = true) :
      Action .common s { s with log := s.log ++ [.destroyCalled] }
  | close {s : Socket} (hd : s._socketState.destroyed = false)
      (he : s._writableState.ended = true) (hh : s._handle.isSome = true) :
      Action .common s (closeNow s)
  | closeMissing {s : Socket} (hd : s._socketState.destroyed = false)
      (he : s._writableState.ended = true) (hh : s._handle = none) :
      Action .common s
        { s with log := s.log ++ [.destroyCalled] ++ [.native .close s.handleStatus] }
  | defer {s : Socket} (he : s._writableState.ending = true)
      (hn : s._writableState.ended = false) :
      Action .common s
        { s with log := s.log ++ [.destroyCalled], finishListeners := s.finishListeners + 1 }
  | once {s : Socket} : Action .common s { s with finishListeners := s.finishListeners + 1 }
  | fire {s : Socket} (he : s._writableState.ended = true) :
      Action .common s { s with finishListeners := s.finishListeners - 1 }
  -- `connect`
  | newHandle {s : Socket} (hh : s._handle = none) :
      Action .common s { s with _handle := some ⟨false, false⟩ }
  | connecting {s : Socket} (hc : s._socketState.connected = false) :
      Action .connecting s { s with _socketState := { s._socketState with connecting := true } }
  | lookup {s : Socket} (lookup : Lookup) (hh : s._handle.isSome = true) :
      Action .connecting s { s with lookups := s.lookups ++ [lookup] }
  | afterLookup {s : Socket} {err : Int} (herr : err = 0)
      (hcall : E.call (.afterLookup err) s) :
      Action .connecting s
        { s with
          lookups := s.lookups.tail
          lookedUp := s.lookedUp + 1
          log := s.log ++ [.event (.lookup none)] }
  | lookupFailed {s : Socket} {err : Int} (message : String) (herr : err ≠ 0)
      (hcall : E.call (.afterLookup err) s) :
      Action .connecting s
        { s with
          lookups := s.lookups.tail
          log := s.log ++ [.connectFailed] ++ [.event (.lookup (some message))] }
  | scheduleFailed {s u : Socket} {err : Int} (message : String) (herr : err ≠ 0)
      (hcall : E.call (.afterLookup err) u) :
      Action .connecting s { s with ticks := s.ticks ++ [.lookupFailed message] }
  | connectHandle {s : Socket} (timer : Option Timer) (connects : Nat)
      (hh : s._handle.isSome = true) (hret : E.returns (.event (.lookup none)) s) :
      Action .connecting s
        { s with
          lookedUp := s.lookedUp - 1
          _timer := timer
          log := s.log ++ [.native .connect s.handleStatus]
          connects := connects }
  | connectFailed {s : Socket} {err : Int} (herr : err ≠ 0)
      (hcall : E.call (.afterConnect err) s) :
      Action .common s
        { s with
          connects := s.connects - 1
          log := s.log ++ [.connectFailed]
          _socketState := { s._socketState with connecting := false } }
  | connectIgnored {s : Socket} (hd : s._socketState.destroyed = true) :
      Action .common s
        { s with
          connects := s.connects - 1
          _socketState := { s._socketState with connecting := false } }
  | establish {s u t : Socket} (h : Establishes s u) (hf : Flush E u t) : Action .common s t
  | establishFinish {s u t : Socket} (h : Establishes s u) (hdue : FinishDue u)
      (hf : Finish E u t) : Action .finish s t
  | scheduleReadStart {s : Socket} (hr : s._writableState.ready = true) :
      Action .common s { s with ticks := s.ticks ++ [.readStart] }
  -- native completions
  | complete {s t : Socket} {req : WriteReq} {rest : List WriteReq} {status : Int}
      (hw : s.writes = req :: rest) (hcall : E.call (.afterWrite status) s)
      (hf : Flush E (completed req status s) t) : Action .complete s t
  | completeFinish {s t : Socket} {req : WriteReq} {rest : List WriteReq} {status : Int}
      (hw : s.writes = req :: rest) (hcall : E.call (.afterWrite status) s)
      (hdue : FinishDue (completed req status s))
      (hf : Finish E (completed req status s) t) : Action .completeFinish s t
  | called {s : Socket} (callback : Callback) (status : Int) :
      Action .complete s { s with log := s.log ++ [.called callback status] }
  | shutdownDone {s : Socket} (hr : s._readableState.ended = false ∨
        s._socketState.destroyed = true) :
      Action .native s { s with shutdowns := s.shutdowns - 1 }
  | shutdownClose {s : Socket} (timer : Option Timer) (he : s._writableState.ended = true)
      (hd : s._socketState.destroyed = false) (hh : s._handle.isSome = true) :
      Action .common s
        (closeNow { s with shutdowns := s.shutdowns - 1, _timer := timer })
  -- ticks
  | tickFinish {s t : Socket} {i : Nat} (hi : s.ticks[i]? = some (.writable .emitFinish))
      (hcall : E.call (.tick i) s) (he : s._writableState.ended = false)
      (hh : s._handle.isSome = true)
      (hf : Finish E { s with ticks := s.ticks.eraseIdx i } t) : Action .finish s t
  | tickMissing {s : Socket} {i : Nat} (hi : s.ticks[i]? = some (.writable .emitFinish))
      (hcall : E.call (.tick i) s) (he : s._writableState.ended = false)
      (hh : s._handle = none) :
      Action .common s
        { finishing s with
          ticks := s.ticks.eraseIdx i
          log := s.log ++ [.event .finish] ++ [.native .shutdown s.handleStatus] }
  | tickEnded {s : Socket} {i : Nat} (hi : s.ticks[i]? = some (.writable .emitFinish))
      (he : s._writableState.ended = true) :
      Action .common s { s with ticks := s.ticks.eraseIdx i }
  | tickCallback {s : Socket} {i : Nat} (callback : Callback)
      (hi : s.ticks[i]? = some (.writable (.callback callback))) :
      Action .common s
        { s with
          ticks := s.ticks.eraseIdx i
          log := s.log ++ [.calledBack callback] }
  | tickLookupFailed {s : Socket} {i : Nat} {message : String}
      (hi : s.ticks[i]? = some (.lookupFailed message)) :
      Action .common s
        { s with
          ticks := s.ticks.eraseIdx i
          log := s.log ++ [.event (.error message)] }
  | tickLookupThrown {s : Socket} {i : Nat} {message : String}
      (hi : s.ticks[i]? = some (.lookupFailed message)) :
      Action .common s { s with ticks := s.ticks.eraseIdx i }
  | readStart {s : Socket} {i : Nat} (hi : s.ticks[i]? = some .readStart)
      (hcall : E.call (.tick i) s) (hh : s._handle.isSome = true) :
      Action .common s
        { s with
          ticks := s.ticks.eraseIdx i
          log := s.log ++ [.native .readStart s.handleStatus] }
  | reading {s : Socket} (hr : s._writableState.ready = true) :
      Action .common s
        { s with _handle := s._handle.map fun handle => { handle with reading := true } }
  -- the readable half
  | push {s : Socket} (data : Bytes) (he : s._readableState.ended = false) :
      Action .native s (pushed data s)
  | take {s : Socket} :
      Action .common s
        { s with _readableState := { s._readableState with buffer := [], length := 0 } }
  | flowing {s : Socket} (flowing : Bool) :
      Action .common s
        { s with _readableState := { s._readableState with flowing := flowing } }
  | eof {s : Socket} (hr : s._writableState.ready = true) :
      Action .eof s (eofMet s)
  | end_ {s : Socket} (he : s._readableState.ended = true) (hl : s._readableState.length = 0) :
      Action .common s
        { s with
          _readableState := { s._readableState with endEmitted := true }
          log := s.log ++ [.event .end_] }
  | unreadable {s : Socket} (he : s._readableState.endEmitted = true) :
      Action .common s { s with _socketState := { s._socketState with readable := false } }

end

end Socket

end IotJs
