import PmTiny.Daemon.Server

namespace PmTiny
set_option autoImplicit true

def msgServerStoping : String := "PM_Tiny is stopping, the operation cannot be performed"

def msgServerReloading : String := "PM_Tiny is reloading, the operation cannot be performed"

namespace Server

def success : Reply := { status := 0, message := "success" }

def serverExiting (ω : System) (id : Nat) (request : Request) (s : Server) : Bool × Server :=
  if s.isReloading then
    (true, s.writeFrame ω id request { status := -1, message := msgServerReloading })
  else if s.serverExit then
    (true, s.writeFrame ω id request { status := -1, message := msgServerStoping })
  else (false, s)

def asyncKillProg (ω : System) (name : String) (s : Server) : Server :=
  match s.findProg name with
  | none => s
  | some p =>
    let nowMs := ω.clock s.ticks
    let s := (s.setProg name fun p => (p.asyncKillProg nowMs).2).tick
    if (p.asyncKillProg nowMs).1 = .sendTerm then s.signalTree name .term else s

def planRestart (s : Server) (name : String) (nowMs lifeTime : Int) : Server :=
  s.setProg name fun p =>
    let plan := p.planAutomaticRestart nowMs lifeTime
    plan.2.setState (if plan.1.restart then .waitingStart else .stoped)

def timeoutRestart (ω : System) (name : String) (s : Server) : Server :=
  let nowMs := ω.clock s.ticks
  let plan (p : ProgInfo) := p.planAutomaticRestart nowMs (nowMs - p.lastStartupMs)
  let restart := (s.findProg name).any fun p => (plan p).1.restart
  let s := (s.setProg name fun p =>
    if (plan p).1.restart then
      { (plan p).2 with deadCount := (plan p).2.deadCount + 1, state := .waitingStart }
    else (plan p).2).tick
  if restart then s else s.flagStartupFail name

def answerSuccess (ω : System) (id : Nat) (request : Request) (s : Server) : Server :=
  if s.isOpen id then
    let exiting := s.serverExiting ω id request
    if exiting.1 then exiting.2 else exiting.2.writeFrame ω id request success
  else s

def startProgTask (ω : System) (name : String) (id : Nat) (showLog : Bool) (site : SpawnSite)
    (s : Server) : Server :=
  let request := Request.restart name showLog
  if s.isOpen id then
    let exiting := s.serverExiting ω id request
    if exiting.1 then exiting.2
    else
      let result := exiting.2.startProg ω name site
      if result.1 = some false then
        result.2.writeFrame ω id request
          { status := -1, message := ω.strerror result.2.errno }
      else
        let s := result.2.setProg name fun p => { p with deadCount := p.deadCount + 1 }
        if showLog then
          let body := (s.findProg name).elim .none liveLogResponse
          (s.addSession name id).writeFrame ω id request { success with body := body }
        else s.writeFrame ω id request success
  else s

def runTask (ω : System) (name : String) (s : Server) : Task → Server
  | .planRestart nowMs lifeTime => s.planRestart name nowMs lifeTime
  | .timeoutRestart => s.timeoutRestart ω name
  | .stopProc id => s.answerSuccess ω id (.stop name)
  | .deleteProg id => s.answerSuccess ω id (.remove name)
  | .startProg id showLog => s.startProgTask ω name id showLog .task

def runPending (ω : System) (name : String) (site : TaskSite) (completedGeneration : Nat)
    (s : Server) (pending : GenerationTask) : Server :=
  if pending.isFor completedGeneration ∧
      (s.findProg name).any (·.inst.generation = completedGeneration) then
    (s.record (.runTask name pending.task site)).runTask ω name pending.task
  else s

def executePenddingtasks (ω : System) (name : String) (site : TaskSite) (s : Server) : Server :=
  match s.findProg name with
  | none => s
  | some p =>
    if p.killPendingtasks = [] then s
    else
      let s := p.killPendingtasks.foldl (runPending ω name site p.inst.generation) s
      s.setProg name fun p => { p with killPendingtasks := [] }

def quitProg (ω : System) (s : Server) (name : String) : Server :=
  let s := s.setProg name (·.resetRestartPolicy)
  let s :=
    if (s.findProg name).any (·.live) then
      (s.asyncKillProg ω name).executePenddingtasks ω name .quit
    else s
  if (s.findProg name).any (·.state = .waitingStart) then s.setProg name (·.setState .noRun) else s

def stopOrder (s : Server) : List String :=
  let ordered := s.progsFromNames
    (s.dependencyGraph.reverseTopologicalOrder.map s.dependencyGraph.name)
  ordered ++ (s.pmTinyProgs.map (·.name)).filter (· ∉ ordered)

def requestQuit (ω : System) (s : Server) : Server :=
  if s.serverExit then s
  else
    let s := { s with serverExit := true }.record .requestQuit
    s.stopOrder.foldl (quitProg ω) s

end Server
end PmTiny
