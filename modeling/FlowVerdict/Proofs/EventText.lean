import FlowVerdict.CommandLine.Reader
import FlowVerdict.Event
import FlowVerdict.Proofs.LineMembers
import FlowVerdict.Proofs.Origins
import FlowVerdict.Proofs.WrittenJson

/-!
# The text of an event

An event is written as one line, whatever stands in its texts. The line is one object in which no
key stands twice, and it repeats the headers of the SYN and the data of the connection as they stood
in the lines of their streams.
-/

namespace FlowVerdict

open Json (Members Bytes Fits Whole Distinct Reads ReadsMember CarriesObject Carries Visible byte)
open Text.Utf8 (encode)

namespace Event

variable {e : Event}

def text (e : Event) : Bytes :=
  encode (e.line ++ "\n")

theorem text_eq (e : Event) : e.text = encode e.toJson.write ++ [byte '\n'] := by
  have hfeed : encode "\n" = [byte '\n'] := by decide +kernel
  rw [text, Text.Utf8.encode_append, hfeed]
  rfl

/-- The only line feed of an event is its end. -/
theorem one_line (e : Event) :
    e.text.count (byte '\n') = 1 ∧ e.text.getLast? = some (byte '\n') := by
  have hnone : (encode e.toJson.write).count (byte '\n') = 0 := by
    apply List.count_eq_zero.mpr
    intro hmem
    exact absurd (Json.visible_write e.toJson _ hmem) (by decide)
  rw [text_eq]
  refine ⟨?_, List.getLast?_concat⟩
  rw [List.count_append, hnone, List.count_singleton_self]

theorem parseListed_text {found : Json} (h : Reads Json.nestingLimit e.toJson found) :
    Json.parseListed e.text = .ok found := by
  have hend : Json.Ends [byte '\n'] := by
    intro b hb
    cases hb
    decide
  rw [text_eq, Json.parseListed, Json.readWhole_eq_ok_iff]
  exact ⟨_, h.read _ hend, rfl⟩

variable {depth : Nat}

theorem readsMember_self {name : String} {j : Json} (h : Reads depth j j) :
    ReadsMember depth (name, j) (name, j) :=
  ⟨rfl, h⟩

theorem reads_port (port : UInt16) : Reads depth (.ofNat port.toNat) (.ofNat port.toNat) := by
  have hlt := port.toNat_lt
  apply Json.reads_int
  constructor <;> omega

theorem reads_ofText? (text : Option String) : Reads depth (.ofText? text) (.ofText? text) := by
  cases text with
  | none => exact Json.reads_null
  | some text => exact Json.reads_str text

theorem reads_optionalMember {name : String} {value : Option Json}
    (h : ∀ j ∈ value, Reads depth j j) :
    List.Forall₂ (ReadsMember depth) (optionalMember name value) (optionalMember name value) := by
  cases value with
  | none => exact .nil
  | some j => exact .cons (readsMember_self (h j rfl)) .nil

/-- An event is read back as it is, the time apart, which may be rounded. -/
theorem exists_reads (hflow : ∀ j ∈ e.flow, Reads depth j j)
    (hip : Reads depth e.ip.toJson e.ip.toJson)
    (htcp : ∀ h ∈ e.tcp, Reads depth h.toJson h.toJson) (hlow : -1e300 < e.unixtime)
    (hhigh : e.unixtime < 1e300) :
    ∃ unixtime, Reads (depth + 1) e.toJson ({ e with unixtime } : Event).toJson := by
  obtain ⟨unixtime, hunixtime⟩ := Json.exists_reads_float depth hlow hhigh
  refine ⟨unixtime, Reads.obj ?_⟩
  have htext : ∀ name text, ReadsMember depth (name, .str text) (name, .str text) :=
    fun _ text => readsMember_self (Json.reads_str text)
  have hport : ∀ name (port : UInt16),
      ReadsMember depth (name, .ofNat port.toNat) (name, .ofNat port.toNat) :=
    fun _ port => readsMember_self (reads_port port)
  refine List.rel_append (List.rel_append (List.rel_append (List.rel_append (List.rel_append
    ?_ (reads_optionalMember hflow)) ?_) (reads_optionalMember ?_)) ?_) (reads_optionalMember ?_)
  · exact .cons (htext _ _) (.cons (htext _ _) (.cons (htext _ _) (.cons (hport _ _)
      (.cons (htext _ _) (.cons (hport _ _) (.cons (htext _ _) (.cons (htext _ _)
        (.cons ⟨rfl, hunixtime⟩ .nil))))))))
  · exact .cons (readsMember_self hip) .nil
  · intro j hj
    obtain ⟨header, hheader, rfl⟩ := Option.map_eq_some_iff.mp hj
    exact htcp header hheader
  · exact .cons (readsMember_self (reads_ofText? _)) .nil
  · intro j hj
    obtain ⟨b, _, rfl⟩ := Option.map_eq_some_iff.mp hj
    exact Json.reads_bool b

theorem distinct_optionalMember {name : String} {value : Option Json}
    (h : ∀ j ∈ value, Distinct j) : ∀ m ∈ optionalMember name value, Distinct m.2 := by
  cases value with
  | none => exact List.forall_mem_nil _
  | some j => exact List.forall_mem_singleton.mpr (h j rfl)

theorem distinct_ofText? (text : Option String) : Distinct (.ofText? text) := by
  cases text with
  | none => exact .null
  | some text => exact .str text

/-- No key stands twice in an event, and its objects stand under their names. -/
theorem exists_members (hflow : ∀ j ∈ e.flow, Distinct j) (hip : Distinct e.ip.toJson)
    (htcp : ∀ h ∈ e.tcp, Distinct h.toJson) :
    ∃ out : Members, e.toJson = .obj out ∧ Distinct (.obj out) ∧
      out.get? "IP" = some e.ip.toJson ∧ out.get? "TCP" = e.tcp.map (·.toJson) ∧
      out.get? "FLOW" = e.flow := by
  refine ⟨_, rfl, .obj ?_ ?_, ?_, ?_, ?_⟩
  · unfold Members.Unique
    cases e.flow <;> cases e.tcp <;> cases e.guessed <;> simp [optionalMember]
  · have htexts : ∀ m ∈ [("origin", Json.str origin), ("timestamp", .str e.timestamp),
        ("src_ip", .str e.srcIp), ("src_port", .ofNat e.srcPort.toNat), ("dest_ip", .str e.destIp),
        ("dest_port", .ofNat e.destPort.toNat), ("proto", .str e.proto),
        ("event_type", .str e.eventType), ("unixtime", .float e.unixtime)], Distinct m.2 := by
      simp only [List.forall_mem_cons, List.not_mem_nil, false_implies, implies_true, and_true]
      exact ⟨.str _, .str _, .str _, .int _, .str _, .int _, .str _, .str _, .float _⟩
    have htcp' : ∀ j ∈ e.tcp.map (·.toJson), Distinct j := by
      intro j hj
      obtain ⟨header, hheader, rfl⟩ := Option.map_eq_some_iff.mp hj
      exact htcp header hheader
    have hguessed : ∀ j ∈ e.guessed.map Json.bool, Distinct j := by
      intro j hj
      obtain ⟨b, _, rfl⟩ := Option.map_eq_some_iff.mp hj
      exact .bool b
    intro m hm
    simp only [List.mem_append, List.mem_singleton] at hm
    rcases hm with ((((hm | hm) | rfl) | hm) | rfl) | hm
    · exact htexts m hm
    · exact distinct_optionalMember hflow m hm
    · exact hip
    · exact distinct_optionalMember htcp' m hm
    · exact distinct_ofText? _
    · exact distinct_optionalMember hguessed m hm
  · cases e.flow <;> cases e.tcp <;> cases e.guessed <;> rfl
  · cases e.flow <;> cases e.tcp <;> cases e.guessed <;> rfl
  · cases e.flow <;> cases e.tcp <;> cases e.guessed <;> rfl

/-- A value that is written and read back as it is, and in which no key stands twice. -/
structure Repeatable (j : Json) : Prop where
  reads : Reads (Json.nestingLimit - 1) j j
  distinct : Distinct j

/-- The line of an event is one object, from which its objects are read back. -/
theorem exists_read (hflow : ∀ j ∈ e.flow, Repeatable j) (hip : Repeatable e.ip.toJson)
    (htcp : ∀ h ∈ e.tcp, Repeatable h.toJson) (hlow : -1e300 < e.unixtime)
    (hhigh : e.unixtime < 1e300) :
    ∃ out : Members, Json.parseListed e.text = .ok (.obj out) ∧ Distinct (.obj out) ∧
      out.get? "IP" = some e.ip.toJson ∧ out.get? "TCP" = e.tcp.map (·.toJson) ∧
      out.get? "FLOW" = e.flow := by
  obtain ⟨unixtime, hreads⟩ := exists_reads (fun j hj => (hflow j hj).reads) hip.reads
    (fun h hh => (htcp h hh).reads) hlow hhigh
  obtain ⟨out, hout, hdistinct, hmembers⟩ := exists_members (e := { e with unixtime })
    (fun j hj => (hflow j hj).distinct) hip.distinct fun h hh => (htcp h hh).distinct
  rw [hout] at hreads
  exact ⟨out, parseListed_text hreads, hdistinct, hmembers⟩

/-- The numbers in the objects that an event repeats are whole. -/
structure WholeNumbers (e : Event) (header connection : Members) : Prop where
  ip : e.verdict ≠ .noSyn → ∀ given ∈ header.get? "IP", Whole given
  tcp : e.verdict ≠ .noSyn → ∀ given ∈ header.get? "TCP", Whole given
  flow : e.verdict ≠ .synScan → ∀ given ∈ connection.get? "FLOW", Whole given

/-- An object repeats those of a SYN line and a connection line, as far as an event reports a SYN
and a connection. -/
structure Repeats (e : Event) (header connection out : Members) : Prop where
  ip : e.verdict ≠ .noSyn → ∃ j given, out.get? "IP" = some j ∧ header.get? "IP" = some given ∧
    CarriesObject j given
  tcp : e.verdict ≠ .noSyn → ∃ j given, out.get? "TCP" = some j ∧ header.get? "TCP" = some given ∧
    CarriesObject j given
  flow : e.verdict ≠ .synScan →
    out.get? "FLOW" = some ((connection.get? "FLOW").getD .null).merged
  no_flow : e.verdict = .synScan → out.get? "FLOW" = none

/-- The objects of an event come from those of a SYN line and a connection line. -/
structure Drawn (e : Event) (header connection : Members) : Prop where
  header_fit : header.Fit (Json.nestingLimit - 1)
  connection_fit : connection.Fit (Json.nestingLimit - 1)
  ip : e.verdict ≠ .noSyn → ∃ given, header.get? "IP" = some given ∧
    CarriesObject e.ip.toJson given
  tcp : e.verdict ≠ .noSyn → ∃ tcp given, e.tcp = some tcp ∧ header.get? "TCP" = some given ∧
    CarriesObject tcp.toJson given
  addresses : e.verdict = .noSyn →
    e.tcp = none ∧ ∃ srcAddr destAddr, e.ip = { srcAddr, destAddr, others := [] }
  flow : e.verdict ≠ .synScan → e.flow = some ((connection.get? "FLOW").getD .null).merged
  no_flow : e.verdict = .synScan → e.flow = none

/-- The addresses that stand in for a missing header. -/
theorem repeatable_addresses (srcAddr destAddr : String) :
    Repeatable (IpHeader.toJson { srcAddr, destAddr, others := [] }) := by
  constructor
  · exact Reads.obj (.cons (readsMember_self (Json.reads_str _))
      (.cons (readsMember_self (Json.reads_str _)) .nil))
  · refine .obj (by simp [Members.Unique]) ?_
    intro m hm
    simp only [List.append_nil, List.mem_cons, List.not_mem_nil, or_false] at hm
    rcases hm with rfl | rfl
    · exact .str _
    · exact .str _

namespace Drawn

variable {header connection : Members}

/-- What is kept part by part of a member that fits can be repeated. -/
theorem repeatable_of_partByPart {j given : Json} {name : String} {members : Members}
    (hfit : members.Fit (Json.nestingLimit - 1)) (hget : members.get? name = some given)
    (hwhole : Whole given) (hkept : ∀ R : Json → Json → Prop, Json.PartByPart R → R given j) :
    Repeatable j :=
  ⟨Json.reads_of_fits (hkept _ Json.Fits.partByPart _ (hfit _ (Members.mem_of_get?_eq_some hget)))
    (hkept _ Whole.partByPart hwhole), hkept _ Distinct.partByPart⟩

theorem repeatable_ip (h : e.Drawn header connection) (hwhole : e.WholeNumbers header connection) :
    Repeatable e.ip.toJson := by
  by_cases hverdict : e.verdict = .noSyn
  · obtain ⟨_, srcAddr, destAddr, hip⟩ := h.addresses hverdict
    rw [hip]
    exact repeatable_addresses srcAddr destAddr
  · obtain ⟨given, hget, hcarries⟩ := h.ip hverdict
    exact repeatable_of_partByPart h.header_fit hget (hwhole.ip hverdict given hget)
      fun _ => hcarries.partByPart

theorem repeatable_tcp (h : e.Drawn header connection) (hwhole : e.WholeNumbers header connection)
    {tcp : TcpHeader} (htcp : e.tcp = some tcp) : Repeatable tcp.toJson := by
  by_cases hverdict : e.verdict = .noSyn
  · rw [(h.addresses hverdict).1] at htcp
    cases htcp
  · obtain ⟨_, given, hsome, hget, hcarries⟩ := h.tcp hverdict
    cases htcp.symm.trans hsome
    exact repeatable_of_partByPart h.header_fit hget (hwhole.tcp hverdict given hget)
      fun _ => hcarries.partByPart

theorem repeatable_flow (h : e.Drawn header connection)
    (hwhole : e.WholeNumbers header connection) {j : Json} (hflow : e.flow = some j) :
    Repeatable j := by
  by_cases hverdict : e.verdict = .synScan
  · rw [h.no_flow hverdict] at hflow
    cases hflow
  · cases (h.flow hverdict).symm.trans hflow
    cases hget : connection.get? "FLOW" with
    | none => exact ⟨Json.reads_null, .null⟩
    | some given =>
        exact repeatable_of_partByPart h.connection_fit hget (hwhole.flow hverdict given hget)
          fun _ hparts => hparts.merged given

/-- The line of an event is one object, and it repeats what the event draws on. -/
theorem exists_repetition (h : e.Drawn header connection)
    (hwhole : e.WholeNumbers header connection) (hlow : -1e300 < e.unixtime)
    (hhigh : e.unixtime < 1e300) :
    ∃ out : Members, Json.parseListed e.text = .ok (.obj out) ∧
      Json.parse e.text = .ok (Json.merged (.obj out)) ∧ Distinct (.obj out) ∧
      e.Repeats header connection out := by
  obtain ⟨out, hlisted, hdistinct, hip, htcp, hflow⟩ := exists_read
    (fun _ hj => h.repeatable_flow hwhole hj) (h.repeatable_ip hwhole)
    (fun _ hj => h.repeatable_tcp hwhole hj) hlow hhigh
  refine ⟨out, hlisted, Json.parse_of_parseListed hlisted, hdistinct, ⟨?_, ?_, ?_, ?_⟩⟩
  · intro hverdict
    obtain ⟨given, hget, hcarries⟩ := h.ip hverdict
    exact ⟨_, given, hip, hget, hcarries⟩
  · intro hverdict
    obtain ⟨tcp, given, hsome, hget, hcarries⟩ := h.tcp hverdict
    rw [hsome] at htcp
    exact ⟨_, given, htcp, hget, hcarries⟩
  · exact fun hverdict => hflow.trans (h.flow hverdict)
  · exact fun hverdict => hflow.trans (h.no_flow hverdict)

end Drawn

end Event

/-- The line of a SYN holds the headers of the SYN. -/
theorem Syn.CameIn.listing {syn : Syn} {line : Bytes} {history : List Action}
    (h : syn.CameIn line history) :
    ∃ header ip tcp, Syn.listing line = .ok header ∧ header.get? "IP" = some ip ∧
      header.get? "TCP" = some tcp ∧ CarriesObject syn.ip.toJson ip ∧
      CarriesObject syn.tcp.toJson tcp ∧ header.Fit (Json.nestingLimit - 1) := by
  have hlisting := Syn.listing_of_parse h.parse
  exact hlisting

/-- The line of a connection holds the data of the connection. -/
theorem Connection.CameIn.listing {con : Connection} {line : Bytes} {history : List Action}
    (h : con.CameIn line history) :
    ∃ connection, Connection.listing line = .ok connection ∧
      con.flow.getD .null = ((connection.get? "FLOW").getD .null).merged ∧
      connection.Fit (Json.nestingLimit - 1) := by
  obtain ⟨parsed, hparse, heq⟩ := h.parse
  have hflow := congrArg Connection.flow heq
  dsimp only at hflow
  rw [hflow]
  exact Connection.listing_of_parse hparse

/-- The lines that the records of a departure came in, by their declared members. -/
structure Departure.Lines (d : Departure) (history : List Action) (header connection : Members) :
    Prop where
  syn : ∀ syn, d.syn? = some syn →
    ∃ line, syn.CameIn line history ∧ Syn.listing line = .ok header
  connection : ∀ con, d.connection? = some con →
    ∃ line, con.CameIn line history ∧ Connection.listing line = .ok connection

/-- The event of a departure draws on the lines of its records. -/
theorem Departure.drawn {d : Departure} {history : List Action}
    (hcon : ∀ con, d.connection? = some con → ∃ line, con.CameIn line history)
    (hsyn : ∀ syn, d.syn? = some syn → ∃ line, syn.CameIn line history) :
    ∃ header connection, d.Lines history header connection ∧
      d.event.Drawn header connection := by
  have hnothing : Members.Fit (Json.nestingLimit - 1) [] := List.forall_mem_nil _
  cases d with
  | joined con syn guessed =>
      obtain ⟨conLine, hcon⟩ := hcon con rfl
      obtain ⟨synLine, hsyn⟩ := hsyn syn rfl
      obtain ⟨header, ip, tcp, hheader, hip, htcp, hcarriesIp, hcarriesTcp, hfit⟩ := hsyn.listing
      obtain ⟨connection, hconnection, hflow, hfitFlow⟩ := hcon.listing
      refine ⟨header, connection, ⟨?_, ?_⟩, hfit, hfitFlow, ?_, ?_, ?_, ?_, ?_⟩
      · rintro _ ⟨⟩
        exact ⟨synLine, hsyn, hheader⟩
      · rintro _ ⟨⟩
        exact ⟨conLine, hcon, hconnection⟩
      · exact fun _ => ⟨ip, hip, hcarriesIp⟩
      · exact fun _ => ⟨syn.tcp, tcp, rfl, htcp, hcarriesTcp⟩
      · rintro ⟨⟩
      · exact fun _ => congrArg some hflow
      · rintro ⟨⟩
  | unanswered con =>
      obtain ⟨line, hcon⟩ := hcon con rfl
      obtain ⟨connection, hconnection, hflow, hfit⟩ := hcon.listing
      refine ⟨[], connection, ⟨?_, ?_⟩, hnothing, hfit, ?_, ?_, ?_, ?_, ?_⟩
      · rintro _ ⟨⟩
      · rintro _ ⟨⟩
        exact ⟨line, hcon, hconnection⟩
      · exact fun hne => absurd rfl hne
      · exact fun hne => absurd rfl hne
      · exact fun _ => ⟨rfl, con.srcIp, con.destIp, rfl⟩
      · exact fun _ => congrArg some hflow
      · rintro ⟨⟩
  | scanned syn =>
      obtain ⟨line, hsyn⟩ := hsyn syn rfl
      obtain ⟨header, ip, tcp, hheader, hip, htcp, hcarriesIp, hcarriesTcp, hfit⟩ := hsyn.listing
      refine ⟨header, [], ⟨?_, ?_⟩, hfit, hnothing, ?_, ?_, ?_, ?_, ?_⟩
      · rintro _ ⟨⟩
        exact ⟨line, hsyn, hheader⟩
      · rintro _ ⟨⟩
      · exact fun _ => ⟨ip, hip, hcarriesIp⟩
      · exact fun _ => ⟨syn.tcp, tcp, rfl, htcp, hcarriesTcp⟩
      · rintro ⟨⟩
      · exact fun hne => absurd rfl hne
      · exact fun _ => rfl

namespace Office

/-- Every event of a session is one line. It reads as one object without repeated keys, with the
headers of the SYN line and the data of the connection line in it, as long as the numbers in these
are whole and the time is not out of all bounds. -/
theorem events_repeat_lines (settings : Settings) (output : Nat → Delivery) (history : List Action)
    (e : Event) (he : e ∈ ((start settings output).run history).books.events) :
    (e.text.count (byte '\n') = 1 ∧ e.text.getLast? = some (byte '\n')) ∧
      ∃ (d : Departure) (header connection : Members), e = d.event ∧
        d.Lines history header connection ∧
        (e.WholeNumbers header connection → -1e300 < e.unixtime → e.unixtime < 1e300 →
          ∃ out : Members, Json.parseListed e.text = .ok (.obj out) ∧
            Json.parse e.text = .ok (Json.merged (.obj out)) ∧ Distinct (.obj out) ∧
            e.Repeats header connection out) := by
  obtain ⟨d, rfl, hcon, hsyn⟩ := exists_departure settings output he
  obtain ⟨header, connection, hlines, hdrawn⟩ := Departure.drawn hcon hsyn
  exact ⟨d.event.one_line, d, header, connection, rfl, hlines, hdrawn.exists_repetition⟩

/-- A SYN line with a key twice, escapes and a minus sign on a zero. -/
def intricateHeader : Bytes :=
  encode ("\x7b\"unixtime\":0,\"IP\":\x7b\"src_addr\":\"10.0.0.1\",\"ttl\":1," ++
    "\"dest_addr\":\"10.0.0.2\",\"ttl\":\x7b\"at\":[-0,64]\x7d\x7d," ++
    "\"TCP\":\x7b\"src_port\":40000,\"note\":\"\\n\\u0022\",\"dest_port\":80\x7d\x7d")

/-- The connection of the same flow, with data. -/
def intricateConnection : Bytes :=
  encode ("\x7b\"src_ip\":\"10.0.0.1\",\"src_port\":40000,\"dest_ip\":\"10.0.0.2\"," ++
    "\"dest_port\":80,\"FLOW\":\x7b\"b\":1,\"a\":null,\"b\":[\"\\t\"]\x7d,\"unixtime\":0\x7d")

def intricateHistory : List Action :=
  [.header intricateHeader, .connection intricateConnection, .matchPass 6.0]

def intricateSession : Office :=
  (start CommandLine.Choices.standard.resolve.settings fun _ => .written).run intricateHistory

/-- The intricate lines are joined, and their objects are read back from the event. -/
theorem intricateSession_repeats :
    ∃ (e : Event) (header connection out : Members), e ∈ intricateSession.books.events ∧
      e.verdict = .accepted ∧ Syn.listing intricateHeader = .ok header ∧
      Connection.listing intricateConnection = .ok connection ∧
      Json.parseListed e.text = .ok (.obj out) ∧ Distinct (.obj out) ∧
      e.Repeats header connection out := by
  have hjoined : ∃ e ∈ intricateSession.books.events,
      e.verdict = .accepted ∧ -1e300 < e.unixtime ∧ e.unixtime < 1e300 := by decide +kernel
  have hheaderWhole : (Syn.listing intricateHeader).toOption.all Json.haveWhole = true := by
    decide +kernel
  have hconnectionWhole :
      (Connection.listing intricateConnection).toOption.all Json.haveWhole = true := by
    decide +kernel
  obtain ⟨e, he, hverdict, hlow, hhigh⟩ := hjoined
  obtain ⟨_, d, header, connection, rfl, hlines, hreads⟩ :=
    events_repeat_lines CommandLine.Choices.standard.resolve.settings (fun _ => .written)
      intricateHistory e he
  cases d with
  | joined con syn guessed =>
      obtain ⟨line, hcame, hheader⟩ := hlines.syn syn rfl
      obtain ⟨conLine, hconCame, hconnection⟩ := hlines.connection con rfl
      have hline : line = intricateHeader := by simpa [intricateHistory] using hcame.mem
      have hconLine : conLine = intricateConnection := by
        simpa [intricateHistory] using hconCame.mem
      subst hline hconLine
      rw [hheader] at hheaderWhole
      rw [hconnection] at hconnectionWhole
      obtain ⟨out, hlisted, _, hdistinct, hrepeats⟩ :=
        hreads ⟨fun _ _ => Json.whole_of_haveWhole hheaderWhole,
          fun _ _ => Json.whole_of_haveWhole hheaderWhole,
          fun _ _ => Json.whole_of_haveWhole hconnectionWhole⟩ hlow hhigh
      exact ⟨_, header, connection, out, he, rfl, hheader, hconnection, hlisted, hdistinct,
        hrepeats⟩
  | unanswered con => cases hverdict
  | scanned syn => cases hverdict

end Office

end FlowVerdict
