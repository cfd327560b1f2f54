import Mathlib
import Taf.Lib.Text

/-! # Which addresses the services listen on

`ClusterUtils.check_if_services_obey_tls`: on a cluster with strict encryption a
plain port may listen on the loopback address only, and a TLS port, if it listens,
on all addresses.  The check reads the listening sockets of a server over a shell
connection of its own, as `RemoteMachineShellConnection.get_port_recvq` lists them:
the IPv4 sockets of a Linux or Windows server whose line has `:port` somewhere. -/

namespace Taf.Cluster

open Taf.Lib

/-- `CbServer.ssl_port_map` -/
def sslPortMap : List (Nat × Nat) :=
  [(8091, 18091), (8092, 18092), (8094, 18094), (8093, 18093), (9102, 19102), (8096, 18096),
    (8095, 18095), (11210, 11207), (8097, 18097)]

/-! ## The listening sockets of a server -/

/-- A listening socket, with the address as it is printed and the rest of its line: the peer,
    the processes, and with `-e` numbers such as `ino:80931`. -/
structure Socket where
  ipv4 : Bool
  address : String
  port : Nat
  rest : String
  deriving DecidableEq

def Socket.localAddress (socket : Socket) : String := socket.address ++ ":" ++ toString socket.port

/-- `info.type` of a server -/
inductive OsType where
  | linux | windows | other
  deriving DecidableEq

/-- The two calls of `get_port_recvq`, of a port of the map and of its TLS port -/
inductive Ask where
  | plain (port : Nat)
  | tls (sslPort : Nat)
  deriving DecidableEq

def Ask.port : Ask → Nat
  | plain port => port
  | tls sslPort => sslPort

structure Machine where
  os : OsType
  -- `localhost` and `127.0.0.1` are asked by `Popen`, which leaves out the line ends.
  remote : Bool
  sockets : List Socket
  -- A `JSchException` of the session is logged and taken for no output.
  answers : Ask → Bool

/-- `ss -4anpe | grep :port | grep 'LISTEN'` and `netstat -a -b -p tcp | ..` print the socket. -/
def Socket.listed (port : Nat) (socket : Socket) : Bool :=
  socket.ipv4 && occursIn (":" ++ toString port) (socket.localAddress ++ " " ++ socket.rest)

/-- `RemoteMachineShellConnection.get_port_recvq` -/
def Machine.getPortRecvq (machine : Machine) (ask : Ask) : List String :=
  match machine.os with
  | .other => []
  | _ =>
    if machine.answers ask then
      (machine.sockets.filter (Socket.listed ask.port)).map fun socket =>
        socket.localAddress ++ if machine.remote then "\n" else ""
    else []

/-! ## The check -/

inductive ShellEvent where
  | connect (server : Machine)
  | disconnect (server : Machine)

/-- How many connections are left open -/
def openConnections (events : List ShellEvent) : Int :=
  (events.map fun
    | .connect _ => 1
    | .disconnect _ => -1).sum

section

-- The keys of the port map: the plain ports.
variable (portMap : List Nat)

/-- Some plain port listens on an address other than `127.0.0.1`. -/
def plainPortExposed (server : Machine) : Bool :=
  portMap.any fun port =>
    (server.getPortRecvq (.plain port)).any fun address => address ≠ "127.0.0.1:" ++ toString port ++ "\n"

/-- Some TLS port listens on less than all addresses. -/
def tlsPortHidden (server : Machine) : Bool :=
  portMap.any fun port =>
    match sslPortMap.lookup port with
    | none => false
    | some sslPort =>
      (server.getPortRecvq (.tls sslPort)).any fun address =>
        address ∉ ["*:" ++ toString sslPort ++ "\n", "0.0.0.0:" ++ toString sslPort ++ "\n"]

/-- One turn of the loop over the servers: what it returns, if it returns, and what the
shell connections did. -/
def checkServer (server : Machine) : Option Bool × List ShellEvent :=
  if plainPortExposed portMap server then
    (some false, [.connect server, .disconnect server])
  else if tlsPortHidden portMap server then
    (some false, [.connect server, .disconnect server])
  else
    -- `return True` stands inside the loop.
    (some true, [.connect server, .disconnect server])

/-- `ClusterUtils.check_if_services_obey_tls`; without a server it returns `None`. -/
def checkIfServicesObeyTls : List Machine → Option Bool × List ShellEvent
  | [] => (none, [])
  | server :: servers =>
    match checkServer portMap server with
    | (some verdict, events) => (some verdict, events)
    | (none, events) =>
      let (verdict, later) := checkIfServicesObeyTls servers
      (verdict, events ++ later)

/-! ## What a server has to obey -/

/-- The addresses on which the port may listen -/
def Ask.Allows : Ask → String → Prop
  | plain _, address => address = "127.0.0.1"
  | tls _, address => address = "*" ∨ address = "0.0.0.0"

/-- The ports of the map, and the TLS ports that belong to them -/
def Asked (ask : Ask) : Prop :=
  match ask with
  | .plain port => port ∈ portMap
  | .tls sslPort => ∃ port ∈ portMap, sslPortMap.lookup port = some sslPort

/-- No plain port is reached from outside, and each TLS port in use from everywhere. -/
def Obeys (server : Machine) : Prop :=
  ∀ ask, Asked portMap ask → ∀ socket ∈ server.sockets, socket.port = ask.port → ask.Allows socket.address

/-- The promise of the check: its verdict is about every server, and no shell is left open. -/
def TlsCheckExact (servers : List Machine) : Prop :=
  ((checkIfServicesObeyTls portMap servers).1 = some true ↔ ∀ server ∈ servers, Obeys portMap server) ∧
    openConnections (checkIfServicesObeyTls portMap servers).2 = 0

/-! ## What a server shows -/

/-- The socket is in the listing of a port that is asked for. -/
def Shows (server : Machine) (ask : Ask) (socket : Socket) : Prop :=
  server.os ≠ .other ∧ Asked portMap ask ∧ server.answers ask ∧ socket ∈ server.sockets ∧ socket.ipv4 ∧
    occursIn (":" ++ toString ask.port) (socket.localAddress ++ " " ++ socket.rest)

/-- A socket of the port itself that may not listen there -/
def ShowsFault (server : Machine) : Prop :=
  ∃ ask socket, Shows portMap server ask socket ∧ socket.port = ask.port ∧ ¬ ask.Allows socket.address

/-- A line that stands for another port, or that has no line end -/
def ShowsStray (server : Machine) : Prop :=
  ∃ ask socket, Shows portMap server ask socket ∧ (socket.port ≠ ask.port ∨ server.remote = false)

end

/-! ## The check of one server is right about what the server shows -/

variable {portMap : List Nat} {server : Machine} {ask : Ask} {socket : Socket}

theorem colon_notMem_repr (n : Nat) : ':' ∉ (toString n).toList := by
  intro member
  rw [show (toString n).toList = Nat.toDigits 10 n from Nat.toList_repr] at member
  have digit := Nat.isDigit_of_mem_toDigits (by decide) (by decide) member
  exact absurd digit (by decide)

/-- A local address tells the address and the port it was written for. -/
theorem localAddress_eq_iff {address : String} {port : Nat} :
    socket.localAddress = address ++ ":" ++ toString port ↔ socket.address = address ∧ socket.port = port := by
  constructor
  · intro same
    have lists : socket.address.toList ++ ':' :: (toString socket.port).toList =
        address.toList ++ ':' :: (toString port).toList := by
      simpa [Socket.localAddress] using congrArg String.toList same
    have tails := suffix_after_separator (colon_notMem_repr _) (colon_notMem_repr _) lists
    have ports : socket.port = port := Nat.repr_injective (String.toList_inj.mp tails)
    rw [tails, List.append_left_inj] at lists
    exact ⟨String.toList_inj.mp lists, ports⟩
  · rintro ⟨rfl, rfl⟩
    rfl

theorem line_eq_iff {address : String} {port : Nat} :
    (socket.localAddress ++ if server.remote then "\n" else "") = address ++ ":" ++ toString port ++ "\n" ↔
      (socket.address = address ∧ socket.port = port) ∧ server.remote = true := by
  cases remote : server.remote with
  | true => simp only [if_true, String.append_left_inj, localAddress_eq_iff, and_true]
  | false =>
    refine iff_of_false (fun same => ?_) (by simp)
    -- The port is the end of the one text, and a line end that of the other.
    have last := congrArg (fun text => text.toList.getLast?) same
    simp only [Bool.false_eq_true, if_false, String.append_empty, Socket.localAddress, String.toList_append,
      List.getLast?_append] at last
    obtain ⟨digit, found⟩ : ∃ digit, (toString socket.port).toList.getLast? = some digit := by
      rw [show (toString socket.port).toList = Nat.toDigits 10 socket.port from Nat.toList_repr]
      exact ⟨_, List.getLast?_eq_getLast_of_ne_nil (List.ne_nil_of_length_pos Nat.length_toDigits_pos)⟩
    have member := List.mem_of_getLast? found
    rw [show (toString socket.port).toList = Nat.toDigits 10 socket.port from Nat.toList_repr] at member
    have isDigit := Nat.isDigit_of_mem_toDigits (by decide) (by decide) member
    rw [found] at last
    obtain rfl : digit = '\n' := by simpa using last
    exact absurd isDigit (by decide)

/-- Some line of a listing passes a test: it is that of a socket that is listed. -/
theorem any_getPortRecvq_iff {test : String → Bool} : (server.getPortRecvq ask).any test = true ↔
    server.os ≠ .other ∧ server.answers ask ∧ ∃ socket ∈ server.sockets, socket.listed ask.port ∧
      test (socket.localAddress ++ if server.remote then "\n" else "") = true := by
  have listing : server.os ≠ .other → server.getPortRecvq ask = if server.answers ask then
      (server.sockets.filter (Socket.listed ask.port)).map fun socket =>
        socket.localAddress ++ if server.remote then "\n" else "" else [] := by
    intro known
    unfold Machine.getPortRecvq
    cases kind : server.os with
    | other => exact absurd kind known
    | linux => rfl
    | windows => rfl
  by_cases known : server.os = .other
  · simp [Machine.getPortRecvq, known]
  · rw [listing known]
    by_cases answers : server.answers ask
    · simp [known, answers]
    · simp [answers]

/-- The line of a socket is another one than what a port may show. -/
def Wrong (server : Machine) (ask : Ask) (socket : Socket) : Prop :=
  ¬ (ask.Allows socket.address ∧ socket.port = ask.port ∧ server.remote = true)

theorem shows_iff : Shows portMap server ask socket ↔
    Asked portMap ask ∧ server.os ≠ .other ∧ server.answers ask ∧ socket ∈ server.sockets ∧
      socket.listed ask.port := by
  rw [Shows, Socket.listed, Bool.and_eq_true]
  tauto

theorem plainPortExposed_iff : plainPortExposed portMap server = true ↔
    ∃ port socket, Shows portMap server (.plain port) socket ∧ Wrong server (.plain port) socket := by
  have wrong (port : Nat) (socket : Socket) :
      decide ((socket.localAddress ++ if server.remote then "\n" else "") ≠
        "127.0.0.1:" ++ toString port ++ "\n") = true ↔ Wrong server (.plain port) socket := by
    rw [decide_eq_true_eq, ne_eq, Wrong, not_iff_not,
      show "127.0.0.1:" ++ toString port = "127.0.0.1" ++ ":" ++ toString port from rfl,
      line_eq_iff, Ask.Allows, Ask.port, and_assoc]
  rw [plainPortExposed, List.any_eq_true]
  simp only [any_getPortRecvq_iff, wrong]
  constructor
  · intro exposed
    obtain ⟨port, inside, os, answers, socket, member, listed, differs⟩ := exposed
    exact ⟨port, socket, shows_iff.mpr ⟨inside, os, answers, member, listed⟩, differs⟩
  · intro shown
    obtain ⟨port, socket, shown, differs⟩ := shown
    obtain ⟨inside, os, answers, member, listed⟩ := shows_iff.mp shown
    exact ⟨port, inside, os, answers, socket, member, listed, differs⟩

theorem tlsPortHidden_iff : tlsPortHidden portMap server = true ↔
    ∃ sslPort socket, Shows portMap server (.tls sslPort) socket ∧ Wrong server (.tls sslPort) socket := by
  have wrong (sslPort : Nat) (socket : Socket) :
      decide ((socket.localAddress ++ if server.remote then "\n" else "") ∉
        ["*:" ++ toString sslPort ++ "\n", "0.0.0.0:" ++ toString sslPort ++ "\n"]) = true ↔
      Wrong server (.tls sslPort) socket := by
    rw [decide_eq_true_eq, List.mem_pair, Wrong, not_iff_not]
    rw [show "*:" ++ toString sslPort = "*" ++ ":" ++ toString sslPort from rfl,
      show "0.0.0.0:" ++ toString sslPort = "0.0.0.0" ++ ":" ++ toString sslPort from rfl,
      line_eq_iff, line_eq_iff, Ask.Allows, Ask.port]
    tauto
  rw [tlsPortHidden, List.any_eq_true]
  constructor
  · intro hidden
    obtain ⟨port, inside, hidden⟩ := hidden
    cases known : sslPortMap.lookup port with
    | none => simp [known] at hidden
    | some sslPort =>
      simp only [known, any_getPortRecvq_iff, wrong] at hidden
      obtain ⟨os, answers, socket, member, listed, differs⟩ := hidden
      exact ⟨sslPort, socket, shows_iff.mpr ⟨⟨port, inside, known⟩, os, answers, member, listed⟩, differs⟩
  · intro shown
    obtain ⟨sslPort, socket, shown, differs⟩ := shown
    obtain ⟨⟨port, inside, known⟩, os, answers, member, listed⟩ := shows_iff.mp shown
    refine ⟨port, inside, ?_⟩
    simp only [known, any_getPortRecvq_iff, wrong]
    exact ⟨os, answers, socket, member, listed, differs⟩

/-- A wrong line is a fault of the port or one of the strays. -/
theorem wrong_iff : Wrong server ask socket ↔
    (socket.port = ask.port ∧ ¬ ask.Allows socket.address) ∨ socket.port ≠ ask.port ∨ server.remote = false := by
  rw [Wrong, ← Bool.not_eq_true]
  tauto

/-- Each turn of the loop returns, with a verdict about what its own server shows. -/
theorem checkServer_eq : ∃ verdict,
    checkServer portMap server = (some verdict, [.connect server, .disconnect server]) ∧
      (verdict = true ↔ ¬ (ShowsFault portMap server ∨ ShowsStray portMap server)) := by
  have shown : (plainPortExposed portMap server = true ∨ tlsPortHidden portMap server = true) ↔
      ShowsFault portMap server ∨ ShowsStray portMap server := by
    have either : (plainPortExposed portMap server = true ∨ tlsPortHidden portMap server = true) ↔
        ∃ ask socket, Shows portMap server ask socket ∧ Wrong server ask socket := by
      rw [plainPortExposed_iff, tlsPortHidden_iff]
      constructor
      · rintro (⟨port, socket, both⟩ | ⟨sslPort, socket, both⟩)
        · exact ⟨_, socket, both⟩
        · exact ⟨_, socket, both⟩
      · rintro ⟨port | sslPort, socket, both⟩
        · exact .inl ⟨port, socket, both⟩
        · exact .inr ⟨sslPort, socket, both⟩
    rw [either, ShowsFault, ShowsStray]
    simp only [← exists_or, ← and_or_left]
    exact exists₂_congr fun ask socket => and_congr_right fun _ => wrong_iff
  rw [← shown, checkServer]
  split_ifs with exposed hidden
  · exact ⟨false, rfl, by simp [exposed]⟩
  · exact ⟨false, rfl, by simp [hidden]⟩
  · exact ⟨true, rfl, by simp [exposed, hidden]⟩

/-- The loop over the servers ends in its first turn. -/
theorem checkIfServicesObeyTls_cons (servers : List Machine) :
    checkIfServicesObeyTls portMap (server :: servers) = checkServer portMap server := by
  obtain ⟨verdict, returned, -⟩ := @checkServer_eq portMap server
  rw [checkIfServicesObeyTls, returned]

/-! ## The verdict is about the first server -/

theorem ShowsFault.not_obeys (fault : ShowsFault portMap server) : ¬ Obeys portMap server := by
  obtain ⟨ask, socket, shown, own, forbidden⟩ := fault
  exact fun obeys => forbidden (obeys ask shown.2.1 socket shown.2.2.2.1 own)

/-- The check keeps its promise exactly where the first server shows a fault, or shows a line that stands for
something else and a server breaks a rule, or shows no such line and all servers obey. -/
theorem tlsCheckExact_iff (portMap : List Nat) (server : Machine) (servers : List Machine) :
    TlsCheckExact portMap (server :: servers) ↔
      ShowsFault portMap server ∨
      (ShowsStray portMap server ∧ ∃ other ∈ server :: servers, ¬ Obeys portMap other) ∨
      (¬ ShowsStray portMap server ∧ ∀ other ∈ server :: servers, Obeys portMap other) := by
  obtain ⟨verdict, returned, shown⟩ := @checkServer_eq portMap server
  have closed : openConnections [.connect server, .disconnect server] = 0 := by simp [openConnections]
  have broken : (∃ other ∈ server :: servers, ¬ Obeys portMap other) ↔
      ¬ ∀ other ∈ server :: servers, Obeys portMap other := by push Not; rfl
  rw [TlsCheckExact, checkIfServicesObeyTls_cons, returned, Option.some_inj, shown, broken,
    and_iff_left closed]
  by_cases fault : ShowsFault portMap server
  · have breaks : ¬ ∀ other ∈ server :: servers, Obeys portMap other :=
      fun all => fault.not_obeys (all server List.mem_cons_self)
    tauto
  · tauto

def queryPort (address : String) : Socket := ⟨true, address, 8093, "0.0.0.0:*"⟩

def linuxServer (sockets : List Socket) : Machine := ⟨.linux, true, sockets, fun _ => true⟩

/-- The second server serves the plain query port to the world, and the check says `True`. -/
theorem tls_second_server_missed :
    ¬ TlsCheckExact [8093] [linuxServer [], linuxServer [queryPort "*"]] := by
  intro exact
  have verdict := exact.1.mp (by decide +kernel)
  have obeys : "*" = "127.0.0.1" := verdict (linuxServer [queryPort "*"]) (by simp) (.plain 8093)
    (List.mem_singleton.mpr rfl) (queryPort "*") (by simp [linuxServer]) rfl
  exact absurd obeys (by decide)

end Taf.Cluster
