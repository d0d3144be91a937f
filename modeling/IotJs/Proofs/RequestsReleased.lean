import IotJs.Proofs.RequestsOwned

/-!
# `IotJs.Proofs.RequestsReleased`: everything is given back once

Each function of the native modules, from the rules of `RequestsOwned`: what it has taken is given
back, with libuv, or lost at one of two places. `balanced_holds` puts them together. Over runs in
which the functions call each other through JavaScript, nothing is given back twice or used
afterwards, and a request that was made is answered once.
-/

set_option autoImplicit false

namespace IotJs

namespace Requests

open Reentrant Ledger

variable {library atRest : Bool} {s₀ s : Requests}

/-- A function that starts with nothing leaves the balance as it was. -/
def Ends (library atRest : Bool) (s₀ : Requests) (p : Requesting Unit) (s : Requests) : Prop :=
  Part library atRest s₀ p (fun _ => (balanced library).PostAt atRest s₀) s

/-! ### tcp -/

theorem ends_tcpBind (h : Owned atRest s₀ [] [] s) (args : List JsType) :
    Ends library atRest s₀ (tcpBind args) s := by
  refine .bind (h.checkArgs fun _ h => .bind (h.allocate (by decide) fun address _ h => ?_))
  refine .bind (.ask fun parsed _ => ?_)
  have hrest : ∀ err t, Owned atRest s₀ [(address, .string)] [] t →
      Ends library atRest s₀ (do returnNumber err; giveBack address) t :=
    fun err _ h => .bind (h.returnNumber fun _ h => h.giveBack [] fun _ h => h.postAt)
  split
  · exact .bind (.ask fun err _ => hrest err _ h)
  · exact hrest parsed _ h

theorem ends_connect (h : Owned atRest s₀ [] [] s) (args : List JsType) :
    Ends library atRest s₀ (connect args) s := by
  refine .bind (h.checkArgs fun _ h => .bind (h.allocate (by decide) fun address _ h => ?_))
  refine .bind (h.touch List.mem_cons_self fun _ h => .bind (.ask fun parsed _ => ?_))
  have hrest : ∀ err t, Owned atRest s₀ [(address, .string)] [] t →
      Ends library atRest s₀ (do returnNumber err; giveBack address) t :=
    fun err _ h => .bind (h.returnNumber fun _ h => h.giveBack [] fun _ h => h.postAt)
  split
  · exact .bind (h.reqwrapCreate (fun _ => rfl) fun r _ _ h => .bind (h.submit hrest))
  · exact hrest parsed _ h

theorem ends_write (h : Owned atRest s₀ [] [] s) (args : List JsType) :
    Ends library atRest s₀ (write args) s := by
  refine .bind (h.checkArgs fun _ h => .bind (h.reqwrapCreate (fun _ => rfl) fun r _ _ h => ?_))
  exact .bind (h.submit fun _ _ h => h.returnNumber fun _ h => h.postAt)

theorem ends_shutdown (h : Owned atRest s₀ [] [] s) (args : List JsType) :
    Ends library atRest s₀ (shutdown args) s := by
  refine .bind (h.checkArgs fun _ h => .bind (h.reqwrapCreate (fun _ => rfl) fun r _ _ h => ?_))
  exact .bind (h.submit fun _ _ h => h.returnNumber fun _ h => h.postAt)

theorem ends_afterStatus {r : Request} (h : Owned atRest s₀ (requestOwn r []) [r.wrap] s)
    (status : Int) : Ends library atRest s₀ (afterStatus r status) s := by
  refine .bind (h.allocate (by decide) fun args _ h => ?_)
  refine .bind (h.jargsAppendNew [] (by decide) fun _ h => ?_)
  refine .bind (Owned.callBack [] h fun _ h => ?_)
  refine .bind (h.jargsDestroy [] (by decide) fun _ h => ?_)
  exact h.dispatched fun _ h => h.postAt

theorem ends_onConnection (h : Owned atRest s₀ [] [] s) (status : Int) :
    Ends library atRest s₀ (onConnection status) s := by
  refine .bind (h.allocate (by decide) fun jonconnection _ h => .bind (h.assertHas ?_))
  refine .bind (h.allocate (by decide) fun args _ h => ?_)
  refine .bind (h.jargsAppendNew [] (by decide) fun _ h => ?_)
  split
  · refine .bind (h.allocate (by decide) fun jcreateTcp _ h => .bind (h.assertHas ?_))
    refine .bind (h.jhelperCallOk (fun _ hj => by cases hj) fun jclientTcp _ h => ?_)
    refine .bind (h.assertHas ?_)
    refine .bind (.ask fun err _ => ?_)
    dsimp only
    split
    · -- the function returns with all that it has taken
      exact .bind (h.lose (List.nil_sublist _) rfl (fun _ => rfl) fun _ h => h.postAt)
    · refine .bind (h.jargsAppend [_, _] (by decide) fun _ h => ?_)
      refine .bind (h.giveBack [_] fun _ h => .bind (h.giveBack [] fun _ h => ?_))
      refine .bind (h.makeCallback List.mem_cons_self fun _ h => ?_)
      exact .bind (h.giveBack [_] fun _ h => h.jargsDestroy [] (by decide) fun _ h => h.postAt)
  · refine .bind (h.makeCallback List.mem_cons_self fun _ h => ?_)
    exact .bind (h.giveBack [_] fun _ h => h.jargsDestroy [] (by decide) fun _ h => h.postAt)

theorem ends_onRead (h : Owned atRest s₀ [] [] s) (allocated : Bool) (nread : Int) :
    Ends library atRest s₀ (onRead allocated nread) s := by
  refine .bind (h.allocateIf (by decide) fun base _ h => ?_)
  refine .bind (h.allocate (by decide) fun jsocket _ h => .bind (h.assertHas ?_))
  refine .bind (h.allocate (by decide) fun jonread _ h => .bind (h.assertHas ?_))
  refine .bind (h.allocate (by decide) fun jargs _ h => ?_)
  refine .bind (h.jargsAppend [] (by decide) fun _ h => ?_)
  refine .bind (h.jargsAppendNew [] (by decide) fun _ h => ?_)
  refine .bind (h.jargsAppend [] (by decide) fun _ h => ?_)
  have hrest : ∀ {argc : Nat} t, argc < 4 →
      Owned atRest s₀ [(jargs, .jargs 4 (argc + 1)), (jonread, .jval), (jsocket, .jval)] [] t →
      Ends library atRest s₀ (do jargsDestroy jargs; giveBack jonread; giveBack jsocket) t :=
    fun _ hargc h => .bind (h.jargsDestroy [] hargc fun _ h => .bind (h.giveBack [] fun _ h =>
      h.giveBack [] fun _ h => h.postAt))
  split
  · refine .bind (h.giveBackIf [_, _, _] fun _ h => ?_)
    split
    · have hcall : ∀ {f : RequestYield} t,
          Owned atRest s₀ [(jargs, .jargs 4 3), (jonread, .jval), (jsocket, .jval)] [] t →
          Ends library atRest s₀ (do
            makeCallback f jargs; jargsDestroy jargs; giveBack jonread; giveBack jsocket) t :=
        fun _ h => .bind (h.makeCallback List.mem_cons_self fun _ h => hrest _ (by decide) h)
      split
      · exact .bind (h.jargsReplace List.mem_cons_self (by decide) hcall)
      · exact hcall _ h
    · exact hrest _ (by decide) h
  · refine .bind (h.allocate (by decide) fun jbuffer _ h => ?_)
    refine .bind (Owned.touchIf [_, _, _, _] h fun _ h => ?_)
    refine .bind (h.jargsAppend [_] (by decide) fun _ h => ?_)
    refine .bind (h.makeCallback (List.mem_cons_of_mem _ List.mem_cons_self) fun _ h => ?_)
    refine .bind (h.giveBack [] fun _ h => .bind (h.giveBackIf [_, _, _] fun _ h => ?_))
    exact hrest _ (by decide) h

/-! ### udp -/

theorem ends_udpBind (h : Owned atRest s₀ [] [] s) {args : List JsType}
    (hargs : library = true → 2 ≤ args.length) : Ends library atRest s₀ (udpBind args) s := by
  refine .bind (h.checkTypes (fun hlibrary => hargs hlibrary) fun _ h => ?_)
  refine .bind (h.allocate (by decide) fun address _ h => ?_)
  refine .bind (h.allocate (by decide) fun reuseAddr _ h => .bind (h.assertHas ?_))
  refine .bind (.ask fun parsed _ => ?_)
  have hrest : ∀ err t, Owned atRest s₀ [(reuseAddr, .jval), (address, .string)] [] t →
      Ends library atRest s₀ (do returnNumber err; giveBack reuseAddr; giveBack address) t :=
    fun err _ h => .bind (h.returnNumber fun _ h => .bind (h.giveBack [] fun _ h =>
      h.giveBack [] fun _ h => h.postAt))
  split
  · exact .bind (.ask fun err _ => hrest err _ h)
  · exact hrest parsed _ h

theorem ends_send (h : Owned atRest s₀ [] [] s) {args : List JsType}
    (hargs : library = true → 4 ≤ args.length ∧ args.getD 3 .undefined = .function) :
    Ends library atRest s₀ (send args) s := by
  refine .bind (h.checkTypes (fun hlibrary => Nat.le_of_succ_le (hargs hlibrary).1) fun _ h => ?_)
  refine .bind (h.getArg (fun hlibrary => (hargs hlibrary).1) ?_)
  refine .bind (h.iotjsAssert (fun hlibrary => ?_) fun _ => ?_)
  · rw [(hargs hlibrary).2]
    rfl
  · refine .bind (h.allocate (by decide) fun address _ h => ?_)
    refine .bind (h.iotjsAssert (fun hlibrary => ?_) fun _ => ?_)
    · rw [(hargs hlibrary).2]
      rfl
    · refine .bind (h.reqwrapCreate (fun hlibrary => (hargs hlibrary).2) fun r _ _ h => ?_)
      refine .bind (h.touch (k := .string) (by simp) fun _ h => .bind (.ask fun parsed _ => ?_))
      have hrest : ∀ err t, Owned atRest s₀ [(address, .string)] [] t →
          Ends library atRest s₀ (do returnNumber err; giveBack address) t :=
        fun err _ h => .bind (h.returnNumber fun _ h => h.giveBack [] fun _ h => h.postAt)
      split
      · exact .bind (h.submit hrest)
      · exact .bind (h.reject (hrest parsed))

theorem ends_onSend {r : Request} (h : Owned atRest s₀ (requestOwn r []) [r.wrap] s)
    (status size : Int) : Ends library atRest s₀ (onSend r status size) s := by
  refine .bind (h.allocate (by decide) fun jargs _ h => ?_)
  refine .bind (h.jargsAppendNew [] (by decide) fun _ h => ?_)
  refine .bind (h.jargsAppendNew [] (by decide) fun _ h => ?_)
  refine .bind (Owned.callBack [] h fun _ h => ?_)
  refine .bind (h.jargsDestroy [] (by decide) fun _ h => ?_)
  exact h.dispatched fun _ h => h.postAt

theorem ends_onRecv (h : Owned atRest s₀ [] [] s) (allocated : Bool) (nread : Int) (addr : Bool) :
    Ends library atRest s₀ (onRecv allocated nread addr) s := by
  refine .bind (h.allocateIf (by decide) fun base _ h => ?_)
  split
  · exact .bind (h.giveBackIf [] fun _ h => h.postAt)
  · refine .bind (h.allocate (by decide) fun jonmessage _ h => .bind (h.assertHas ?_))
    refine .bind (h.allocate (by decide) fun jargs _ h => ?_)
    refine .bind (h.jargsAppendNew [] (by decide) fun _ h => ?_)
    refine .bind (h.jargsAppend [] (by decide) fun _ h => ?_)
    split
    · refine .bind (h.giveBackIf [_, _] fun _ h => ?_)
      refine .bind (h.makeCallback List.mem_cons_self fun _ h => ?_)
      refine .bind (h.giveBack [_] fun _ h => ?_)
      exact .bind (h.jargsDestroy [] (by decide) fun _ h => h.postAt)
    · refine .bind (h.allocate (by decide) fun jbuffer _ h => ?_)
      refine .bind (Owned.touchIf [_, _, _] h fun _ h => ?_)
      refine .bind (h.jargsAppend [_] (by decide) fun _ h => ?_)
      refine .bind (h.allocate (by decide) fun rinfo _ h => ?_)
      refine .bind (h.jargsAppend [_, _] (by decide) fun _ h => ?_)
      refine .bind (h.makeCallback (List.mem_append_right _ List.mem_cons_self) fun _ h => ?_)
      refine .bind (h.giveBack [] fun _ h => .bind (h.giveBack [] fun _ h => ?_))
      refine .bind (h.giveBack [_] fun _ h => .bind (h.giveBackIf [_] fun _ h => ?_))
      exact h.jargsDestroy [] (by decide) fun _ h => h.postAt

theorem ends_setMembership (h : Owned atRest s₀ [] [] s) (name : String) {args : List JsType}
    (hargs : library = true →
      2 ≤ args.length ∧ args.getD 1 .undefined ∈ [JsType.undefined, .null, .string]) :
    Ends library atRest s₀ (setMembership name args) s := by
  refine .bind (h.checkTypes (fun hlibrary => Nat.le_of_succ_le (hargs hlibrary).1) fun _ h => ?_)
  refine .bind (h.allocate (by decide) fun address _ h => ?_)
  refine .bind (h.getArg (fun hlibrary => (hargs hlibrary).1) ?_)
  split
  · refine .bind (.ask fun err _ => .bind (h.returnNumber fun _ h => ?_))
    exact h.giveBack [] fun _ h => h.postAt
  · rename_i hnull
    refine .bind (h.iotjsAssert (fun hlibrary => ?_) fun _ => ?_)
    · have hmem := (hargs hlibrary).2
      simp only [List.mem_cons, List.not_mem_nil, or_false] at hmem
      rcases hmem with heq | heq | heq <;> rw [heq] at hnull ⊢
      · exact absurd rfl hnull
      · exact absurd rfl hnull
      · rfl
    · refine .bind (h.allocate (by decide) fun iface _ h => .bind (.ask fun err _ => ?_))
      refine .bind (h.returnNumber fun _ h => .bind (h.giveBack [_] fun _ h => ?_))
      exact h.giveBack [] fun _ h => h.postAt

/-! ### dns -/

theorem ends_getAddrInfo (h : Owned atRest s₀ [] [] s) (args : List JsType) (option : Int) :
    Ends library atRest s₀ (getAddrInfo args option) s := by
  refine .bind (h.checkArgs fun _ h => .bind (h.allocate (by decide) fun hostname _ h => ?_))
  split
  · -- the name of the host is lost
    refine .bind (h.allocate (by decide) fun e _ h => .bind ?_)
    exact h.lose ((List.nil_sublist _).cons_cons _) rfl (fun _ => rfl) fun _ h =>
      h.giveBack [] fun _ h => h.postAt
  · refine .bind (h.reqwrapCreate (fun _ => rfl) fun r _ _ h => ?_)
    refine .bind (h.touch (k := .string) (by simp) fun _ h => .bind (h.submit fun err _ h => ?_))
    exact .bind (h.returnNumber fun _ h => h.giveBack [] fun _ h => h.postAt)

theorem ends_afterGetAddrInfo {r : Request} (h : Owned atRest s₀ (requestOwn r []) [r.wrap] s)
    (status : Int) (ip : String) : Ends library atRest s₀ (afterGetAddrInfo r status ip) s := by
  refine .bind (h.allocate (by decide) fun args _ h => ?_)
  refine .bind (h.jargsAppendNew [] (by decide) fun _ h => ?_)
  have hrest : ∀ {argc : Nat} {values : List JsValue} t, argc < 3 →
      Owned atRest s₀ ((args, .jargs 3 (argc + 1)) :: requestOwn r []) [r.wrap] t →
      Ends library atRest s₀ (do callBack r values args; jargsDestroy args; dispatched r) t :=
    fun _ hargc h => .bind (Owned.callBack [] h fun _ h => .bind (h.jargsDestroy [] hargc
      fun _ h => h.dispatched fun _ h => h.postAt))
  split
  · exact .bind (h.jargsAppendNew [] (by decide) fun _ h => hrest _ (by decide) h)
  · exact hrest _ (by decide) h

/-! ### fs -/

variable {own : List (Nat × Resource)} {todo : List Nat} {R : Unit → Requests → Prop}

theorem Owned.makeStatObject (h : Owned atRest s₀ own todo s) {Q : Nat → Requests → Prop}
    (hQ : ∀ i t, Owned atRest s₀ ((i, .jval) :: own) todo t → Q i t) :
    Part library atRest s₀ makeStatObject Q s := by
  refine .bind (h.allocate (by decide) fun createStat _ h => .bind (h.assertHas ?_))
  refine .bind (h.allocate (by decide) fun jstat _ h => ?_)
  refine .bind (h.allocate (by decide) fun jargs _ h => ?_)
  refine .bind (h.jargsAppend [] (by decide) fun _ h => .bind (h.giveBack [_] fun _ h => ?_))
  refine .bind (h.jhelperCallOk (fun _ hj => ?_) fun res _ h => ?_)
  · exact ⟨1, 1, by rw [← Option.mem_some.mp hj]; exact List.mem_cons_self⟩
  · refine .bind (h.jargsDestroy [_] (by decide) fun _ h => ?_)
    exact .bind (h.giveBack [_] fun t h => hQ res t h)

theorem Owned.scandirNames (h : Owned atRest s₀ own todo s) (entries : List String)
    (hQ : ∀ t, Owned atRest s₀ own todo t → R () t) :
    Part library atRest s₀ (scandirNames entries) R s := by
  induction entries generalizing s with
  | nil => exact hQ s h
  | cons entry entries ih =>
      exact .bind (h.allocate (by decide) fun name _ h => .bind (h.giveBack [] fun _ h => ih h))

theorem part_afterAsync {r : Request} (h : Owned atRest s₀ (requestOwn r own) (r.wrap :: todo) s)
    (type : FsType) (result : Int) (entries : List String)
    (hQ : ∀ t, Owned atRest s₀ own todo t → R () t) :
    Part library atRest s₀ (afterAsync r type result entries) R s := by
  refine .bind (h.touch (List.mem_cons_of_mem _ List.mem_cons_self) fun _ h => ?_)
  refine .bind (h.allocate (by decide) fun jarg _ h => ?_)
  have hrest : ∀ {argc : Nat} {values : List JsValue} t, argc < 2 →
      Owned atRest s₀ ((jarg, .jargs 2 (argc + 1)) :: requestOwn r own) (r.wrap :: todo) t →
      Part library atRest s₀ (do callBack r values jarg; jargsDestroy jarg; dispatched r) R t :=
    fun _ hargc h => .bind (Owned.callBack [] h fun _ h => .bind (h.jargsDestroy [] hargc
      fun _ h => h.dispatched hQ))
  split
  · refine .bind (h.allocate (by decide) fun jerror _ h => ?_)
    refine .bind (h.jargsAppend [_] (by decide) fun _ h => .bind (h.giveBack [] fun _ h => ?_))
    exact hrest _ (by decide) h
  · refine .bind (h.jargsAppend [] (by decide) fun _ h => ?_)
    split
    · exact hrest _ (by decide) h
    · exact .bind (h.jargsAppendNew [] (by decide) fun _ h => hrest _ (by decide) h)
    · exact .bind (h.jargsAppendNew [] (by decide) fun _ h => hrest _ (by decide) h)
    · exact .bind (h.jargsAppendNew [] (by decide) fun _ h => hrest _ (by decide) h)
    · refine .bind (h.allocate (by decide) fun ret _ h => ?_)
      refine .bind (h.scandirNames entries fun _ h => ?_)
      refine .bind (h.jargsAppend [_] (by decide) fun _ h => .bind (h.giveBack [] fun _ h => ?_))
      exact hrest _ (by decide) h
    · refine .bind (h.makeStatObject fun ret _ h => ?_)
      refine .bind (h.jargsAppend [_] (by decide) fun _ h => .bind (h.giveBack [] fun _ h => ?_))
      exact hrest _ (by decide) h
    · exact .bind (h.jargsAppend [] (by decide) fun _ h => hrest _ (by decide) h)
    · exact .bind (h.jargsAppend [] (by decide) fun _ h => hrest _ (by decide) h)
    · exact .bind (h.jargsAppend [] (by decide) fun _ h => hrest _ (by decide) h)
    · exact .bind (h.jargsAppend [] (by decide) fun _ h => hrest _ (by decide) h)

theorem part_afterSync (h : Owned atRest s₀ own todo s) (type : FsType) (err : Int)
    (entries : List String) (hQ : ∀ t, Owned atRest s₀ own todo t → R () t) :
    Part library atRest s₀ (afterSync type err entries) R s := by
  have hreturn : ∀ {value : JsValue} {i : Nat} t, Owned atRest s₀ ((i, .jval) :: own) todo t →
      Part library atRest s₀ (do note (.returned value); giveBack i) R t :=
    fun _ h => .bind (h.note rfl (fun _ => rfl) fun _ h => h.giveBack [] hQ)
  unfold afterSync
  split
  · refine .bind (h.allocate (by decide) fun jerror _ h => ?_)
    exact .bind (h.note rfl (fun _ => rfl) fun _ h => h.giveBack [] hQ)
  · split
    · exact hQ s h
    · exact h.returnNumber hQ
    · exact h.returnNumber hQ
    · exact h.returnNumber hQ
    · exact .bind (h.makeStatObject fun stat _ h => hreturn _ h)
    · exact h.note rfl (fun _ => rfl) hQ
    · exact h.note rfl (fun _ => rfl) hQ
    · exact h.note rfl (fun _ => rfl) hQ
    · exact h.note rfl (fun _ => rfl) hQ
    · exact .bind (h.allocate (by decide) fun ret _ h => .bind (h.scandirNames entries hreturn))

theorem part_fsAsync (h : Owned atRest s₀ own todo s) (type : FsType) (entries : List String)
    (hQ : ∀ t, Owned atRest s₀ own todo t → R () t) :
    Part library atRest s₀ (fsAsync type entries) R s := by
  refine .bind (h.reqwrapCreate (fun _ => rfl) fun r _ _ h => ?_)
  refine .bind (h.touch (List.mem_cons_of_mem _ List.mem_cons_self) fun _ h => ?_)
  refine .bind (.ask fun err _ => ?_)
  have hrest : ∀ t, Owned atRest s₀ own todo t →
      Part library atRest s₀ (note (.returned .null)) R t :=
    fun _ h => h.note rfl (fun _ => rfl) hQ
  split
  · exact .bind (part_afterAsync h type err entries hrest)
  · exact .bind (h.accept hrest)

theorem part_checkBuffer (h : Owned atRest s₀ [] [] s) (name : String) (b : FsBuffer)
    (hQ : ∀ t, Owned atRest s₀ [] [] t → R () t) :
    Part library atRest s₀ (checkBuffer name b) R s := by
  refine .bind (h.jhandlerCheck fun _ h _ => .bind (h.jhandlerCheck fun _ h _ => ?_))
  dsimp only
  split
  · refine .bind (h.jhandlerThrow rfl fun _ h => ?_)
    exact .bind h.fail
  · split
    · exact .bind (h.jhandlerThrow rfl fun _ h => h.fail)
    · exact hQ _ h

theorem part_allocateIf_false {b : Bool} {k : Resource} {Q : Option Nat → Requests → Prop}
    (hb : b = false) (hQ : Q none s) : Part library atRest s₀ (allocateIf b k) Q s := by
  rw [hb]
  exact hQ

theorem ends_fsFunction (h : Owned atRest s₀ [] [] s) (name : String) (type : FsType)
    (types : List JsType) (callback paths : Nat) (args : List JsType) (buffer : Option FsBuffer)
    (entries : List String) (hpaths : buffer = none ∨ paths = 0) :
    Ends library atRest s₀ (fsFunction name type types callback paths args buffer entries) s := by
  refine .bind (h.checkArgs fun _ h => .bind (h.checkArgIfExist fun _ h => ?_))
  have hcall : ∀ {first second : Option Nat} t,
      Owned atRest s₀ (optional second .string ++ optional first .string) [] t →
      Ends library atRest s₀ (do
        if callback < args.length then fsAsync type entries else fsSync type entries
        giveBackIf first
        giveBackIf second) t := by
    intro first second t h
    have hrest : ∀ t, Owned atRest s₀ (optional second .string ++ optional first .string) [] t →
        Ends library atRest s₀ (do giveBackIf first; giveBackIf second) t := by
      intro t h
      have hfirst : Owned atRest s₀
          (optional second .string ++ (optional first .string ++ [])) [] t := by
        rw [List.append_nil]
        exact h
      refine .bind (hfirst.giveBackIf _ fun _ h => ?_)
      exact Owned.giveBackIf [] h fun _ h => h.postAt
    dsimp only
    split
    · exact .bind (part_fsAsync h type entries hrest)
    · exact .bind (.bind (.ask fun err _ => part_afterSync h type err entries hrest))
  cases buffer with
  | none =>
      refine .bind (h.allocateIf (by decide) fun first _ h => ?_)
      refine .bind (h.allocateIf (by decide) fun second _ h => ?_)
      rw [List.append_nil] at h
      exact hcall _ h
  | some b =>
      obtain rfl := hpaths.resolve_left fun hnone => by cases hnone
      -- the functions with a buffer have no path
      refine .bind (part_allocateIf_false rfl (.bind (part_allocateIf_false rfl ?_)))
      exact .bind (part_checkBuffer h name b fun _ h => @hcall none none _ h)

theorem ends_fs (h : Owned atRest s₀ [] [] s) (call : FsCall) (args : List JsType)
    (entries : List String) : Ends library atRest s₀ (fs call args entries) s := by
  cases call with
  | close => exact ends_fsFunction h _ _ _ _ _ _ _ _ (.inl rfl)
  | «open» => exact ends_fsFunction h _ _ _ _ _ _ _ _ (.inl rfl)
  | read b =>
      show Ends library atRest s₀ (fsFunction "Read" .read _ 5 0 args (some b) entries) s
      exact ends_fsFunction h _ _ _ _ _ _ _ _ (.inr rfl)
  | write b =>
      show Ends library atRest s₀ (fsFunction "Write" .write _ 5 0 args (some b) entries) s
      exact ends_fsFunction h _ _ _ _ _ _ _ _ (.inr rfl)
  | stat => exact ends_fsFunction h _ _ _ _ _ _ _ _ (.inl rfl)
  | mkdir => exact ends_fsFunction h _ _ _ _ _ _ _ _ (.inl rfl)
  | rmdir => exact ends_fsFunction h _ _ _ _ _ _ _ _ (.inl rfl)
  | unlink => exact ends_fsFunction h _ _ _ _ _ _ _ _ (.inl rfl)
  | rename => exact ends_fsFunction h _ _ _ _ _ _ _ _ (.inl rfl)
  | readdir => exact ends_fsFunction h _ _ _ _ _ _ _ _ (.inl rfl)

/-! ### All of them -/

/-- libuv gives a request to the function that it calls. -/
theorem Owned.take_pending {r : Request} (h : Owned true s₀ [] [] s) (hr : r ∈ s.pending) :
    Owned true s₀ (requestOwn r []) [r.wrap] { s with pending := s.pending.erase r } := by
  have hperm : s.pending.Perm (r :: s.pending.erase r) := List.perm_cons_erase hr
  refine ⟨h.once, h.valid, h.began, h.alive, ?_, h.start, fun d f hs => ?_,
    fun hrest => by cases hrest⟩
  · refine h.owns.perm ((hperm.flatMap_right _).trans ?_)
    exact List.Perm.swap (r.jcallback, Resource.jcallback) (r.wrap, .reqwrap) _
  · obtain ⟨hlive, hanswered⟩ := h.accounts d f hs
    refine ⟨?_, fun i => ?_⟩
    · have hlength := hperm.length_eq
      rw [List.length_cons] at hlength
      show live s.heap = 2 * (s.pending.erase r).length + lostBy s.log + (d + 2)
      rw [hlive, hlength, List.length_nil]
      omega
    · show wraps s.heap i = s.log.countP (answers i) +
        ((s.pending.erase r).map Request.wrap).count i + (f i + [r.wrap].count i)
      rw [hanswered i, (hperm.map Request.wrap).count_eq i, List.map_cons, List.count_cons,
        List.count_singleton, List.count_nil]
      omega

theorem ends_complete (h : Owned true s₀ [] [] s) {r : Request} (hr : r ∈ s.pending)
    (result : UvResult) : Ends library true s₀ (complete r result) s := by
  have htaken := h.take_pending hr
  obtain ⟨kind, wrap, jcallback⟩ := r
  cases kind with
  | connect => exact ends_afterStatus htaken _
  | write => exact ends_afterStatus htaken _
  | shutdown => exact ends_afterStatus htaken _
  | send => exact ends_onSend htaken _ _
  | getaddrinfo => exact ends_afterGetAddrInfo htaken _ _
  | fs type => exact part_afterAsync htaken _ _ _ fun _ h => h.postAt

theorem inv_new (library : Bool) : Inv library new :=
  ⟨once_nil, rfl, fun _ => rfl, owns_nil _, 0, fun _ => 0, rfl, fun _ => rfl⟩

theorem balanced_holds (library : Bool) :
    Contract.Holds machine (surroundings library) .nil (balanced library) new where
  init := inv_new library
  body call atRest s _ hinv henabled hcall _ := by
    have hstart : s.aborted = false → Owned atRest s [] [] s := owned_start hinv
    have halive : enabled atRest s call = true → s.aborted = false := by
      intro henabled
      cases call <;> simp_all [enabled]
    have h := hstart (halive henabled)
    cases call with
    | tcpBind args => exact ends_tcpBind h args
    | connect args => exact ends_connect h args
    | write args => exact ends_write h args
    | shutdown args => exact ends_shutdown h args
    | udpBind args => exact ends_udpBind h hcall
    | send args => exact ends_send h hcall
    | setMembership name args => exact ends_setMembership h name hcall
    | getAddrInfo args option => exact ends_getAddrInfo h args option
    | fs call args entries => exact ends_fs h call args entries
    | complete r result =>
        have hboth : atRest = true ∧ r ∈ s.pending := by
          have henabled : (!s.aborted && atRest && s.pending.contains r) = true := henabled
          simp_all
        obtain ⟨rfl, hr⟩ := hboth
        exact ends_complete h hr result
    | connection status => exact ends_onConnection h status
    | read allocated nread => exact ends_onRead h allocated nread
    | recv allocated nread addr => exact ends_onRecv h allocated nread addr

instance (library : Bool) : (surroundings library).Testable where
  call
    | .udpBind args, _ => inferInstanceAs (Decidable (library = true → 2 ≤ args.length))
    | .send args, _ => inferInstanceAs (Decidable (library = true →
        4 ≤ args.length ∧ args.getD 3 .undefined = .function))
    | .setMembership _ args, _ => inferInstanceAs (Decidable (library = true →
        2 ≤ args.length ∧ args.getD 1 .undefined ∈ [.undefined, .null, .string]))
    | .tcpBind _, _ => .isTrue fun _ => trivial
    | .connect _, _ => .isTrue fun _ => trivial
    | .write _, _ => .isTrue fun _ => trivial
    | .shutdown _, _ => .isTrue fun _ => trivial
    | .getAddrInfo _ _, _ => .isTrue fun _ => trivial
    | .fs _ _ _, _ => .isTrue fun _ => trivial
    | .complete _ _, _ => .isTrue fun _ => trivial
    | .connection _, _ => .isTrue fun _ => trivial
    | .read _ _, _ => .isTrue fun _ => trivial
    | .recv _ _ _, _ => .isTrue fun _ => trivial
  answer
    | .has _ _, _, r => inferInstanceAs (Decidable (library = true → r ≠ 0))
    | .fails, _, r => inferInstanceAs (Decidable (library = true → r = 0))
    | .ip4Addr, _, _ => .isTrue fun _ => trivial
    | .tcpBind, _, _ => .isTrue fun _ => trivial
    | .tcpConnect, _, _ => .isTrue fun _ => trivial
    | .accept, _, _ => .isTrue fun _ => trivial
    | .write, _, _ => .isTrue fun _ => trivial
    | .shutdown, _, _ => .isTrue fun _ => trivial
    | .udpBind, _, _ => .isTrue fun _ => trivial
    | .udpSend, _, _ => .isTrue fun _ => trivial
    | .setMembership, _, _ => .isTrue fun _ => trivial
    | .getaddrinfo, _, _ => .isTrue fun _ => trivial
    | .fs _, _, _ => .isTrue fun _ => trivial
    | .throws, _, _ => .isTrue fun _ => trivial
  returns _ s := inferInstanceAs (Decidable (s.aborted = false))
  throws _ _ := .isFalse id

/-- Whatever the library does, and whatever order the functions run in: nothing is given back twice,
or used after it was given back, and libuv has the wrapper and the callback of each request that it
has accepted, which no two requests share. -/
theorem released_once {library : Bool} {c : Config Requests RequestYield RequestAsk}
    (hc : machine.Reach (surroundings library) new c) :
    Once c.heap.heap ∧ c.heap.stale = false ∧ Owns c.heap.heap (held c.heap.pending) := by
  have hinv := (balanced_holds library).inv_of_reach hc
  exact ⟨hinv.once, hinv.valid, hinv.owns⟩

/-- A request that waits, and in the callback of another one a request that libuv refuses. -/
def writing : List (Move Call) :=
  [.call (.write [.object, .function]) [], .call (.fs .unlink [.string, .function] []) [],
    .call (.complete ⟨.write, 0, 1⟩ ⟨0, 0, "", []⟩) [], .call (.shutdown [.function]) [-1]]

theorem released_once_of_writing :
    ∃ c : Config Requests RequestYield RequestAsk, c.heap.pending.length = 1 ∧
      c.stack.length = 1 ∧ Once c.heap.heap ∧ c.heap.stale = false ∧
      Owns c.heap.heap (held c.heap.pending) := by
  obtain ⟨c, hc, hrun⟩ := Machine.exists_reach_of_run machine (surroundings true) new writing
    (fun c => c.heap.pending.length == 1 && c.stack.length == 1) (by decide +kernel)
  rw [Bool.and_eq_true, beq_iff_eq, beq_iff_eq] at hrun
  exact ⟨c, hrun.1, hrun.2, released_once hc⟩

/-- When nothing runs, the only things that are not given back are the wrapper and the callback of
each request that waits, and what is lost where `GetAddrInfo` throws and where `uv_accept` fails.
Each request wrapper that was ever made is answered once, or waits: its callback is called, or the
function that made it gives it back. -/
theorem answered_once {library : Bool} {s : Requests}
    (hs : machine.Reach (surroundings library) new ⟨s, []⟩) (halive : s.aborted = false) :
    live s.heap = 2 * s.pending.length + lostBy s.log ∧
      ∀ i, wraps s.heap i = s.log.countP (answers i) + (s.pending.map Request.wrap).count i := by
  have hsettles : Settles new s := (balanced_holds library).outer_of_rest hs rfl
  obtain ⟨hlive, hanswered⟩ := hsettles.2 halive 0 (fun _ => 0) ⟨rfl, fun _ => rfl⟩
  exact ⟨hlive, hanswered⟩

theorem answered_once_of_writing :
    ∃ s : Requests, s.pending.length = 1 ∧ s.log.length = 5 ∧
      live s.heap = 2 * s.pending.length + lostBy s.log ∧
      ∀ i, wraps s.heap i = s.log.countP (answers i) + (s.pending.map Request.wrap).count i := by
  obtain ⟨⟨s, stack⟩, hc, hrun⟩ := Machine.exists_reach_of_run machine (surroundings true) new
    (writing ++ [.ret [0, 1], .ret [0, 1]])
    (fun c => c.heap.pending.length == 1 && c.heap.log.length == 5 && c.stack.isEmpty &&
      !c.heap.aborted) (by decide +kernel)
  simp only [Bool.and_eq_true, beq_iff_eq, List.isEmpty_iff, Bool.not_eq_true'] at hrun
  obtain ⟨⟨⟨hpending, hlog⟩, rfl⟩, halive⟩ := hrun
  exact ⟨s, hpending, hlog, answered_once hc halive⟩

end Requests

end IotJs
