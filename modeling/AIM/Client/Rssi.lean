import AIM.Client.ManageMessage
import AIM.Foundation.CText
import AIM.Foundation.DecimalRoundTrip

namespace AIM.Client

open Decoder Database Decimal
open CText (fgets strtok strstr)

/-! # The signal level of a station

`get_rssi_from_iw`: the lines that `iw` prints are read one by one until one of them
contains a signal level. -/

/-- `POPEN_IW_BUFF_SIZE` -/
def popenIwBuffSize : Nat := 2000

def iwDelimiters : Text := [' ', ',']

/-- The number at the start of a token, or zero if there is none. -/
def strtod (token : Text) : ℚ := (readDecimal token).getD 0

/-- The variables of the loop, with the position that `strtok` keeps between its calls. -/
structure IwParser where
  pch : Option Text
  saved : Text
  signalLv : ℚ

namespace IwParser

/-- `pch=strtok(NULL," ,")` -/
def nextToken (parser : IwParser) : IwParser :=
  match strtok iwDelimiters parser.saved with
  | none => { parser with pch := none, saved := [] }
  | some (token, saved) => { parser with pch := some token, saved := saved }

/-- The body of the loop, and whether it breaks. There is no result when a null pointer is
used as a string. -/
def onLine (macaddr : Fin 6 → UInt8) (parser : IwParser) (popenIwBuff : Text) :
    Option (IwParser × Bool) :=
  let parser := nextToken { parser with saved := popenIwBuff }
  match parser.pch with
  | none => none
  | some pch =>
      if strstr pch "Station".toList then
        let parser := parser.nextToken
        match parser.pch with
        | none => none
        | some pch =>
            -- another station: one more token of this line is skipped
            if pch ≠ (printMac (List.ofFn macaddr)).toList then some (parser.nextToken, false)
            else some (parser, false)
      else if strstr pch "signal:".toList then
        let parser := parser.nextToken
        match parser.pch with
        | none => none
        | some pch => some ({ parser with signalLv := strtod pch }, true)
      else some (parser, false)

/-- The loop, for a number of calls of `fgets` that suffices for the stream. -/
def readLines (macaddr : Fin 6 → UInt8) : Nat → Text → IwParser → Option ℚ
  | 0, _, _ => none
  | calls + 1, ssh, parser =>
      match fgets popenIwBuffSize ssh with
      | none => some parser.signalLv
      | some (popenIwBuff, rest) =>
          match parser.onLine macaddr popenIwBuff with
          | none => none
          | some (parser, true) => some parser.signalLv
          | some (parser, false) => readLines macaddr calls rest parser

end IwParser

/-- The stream of `popen` is given by what can be read from it, unless it was not opened. -/
def getRssiFromIw (macaddr : Fin 6 → UInt8) : Option Text → Option ℚ
  | none => some rssiUnavailable
  | some ssh => IwParser.readLines macaddr (ssh.length + 1) ssh ⟨none, [], rssiUnavailable⟩

/-! ## What `iw` prints -/

def lowerHexDigit (digit : Nat) : Char := "0123456789abcdef".toList.getD digit '0'

/-- A MAC address as `iw` prints it. -/
def lowerMac (mac : Fin 6 → UInt8) : Text :=
  [':'].intercalate ((List.ofFn mac).map fun byte =>
    [lowerHexDigit (byte.toNat / 16), lowerHexDigit (byte.toNat % 16)])

def stationLine (mac : Fin 6 → UInt8) (iface : Text) : Text :=
  "Station".toList ++ ' ' :: (lowerMac mac ++ ' ' :: ("(on ".toList ++ iface ++ [')']))

def signalLine (signal : Int) (details : Text) : Text :=
  "signal:".toList ++ ' ' :: (intText signal ++ ' ' :: details)

structure IwStation where
  mac : Fin 6 → UInt8
  iface : Text
  signal : Int
  details : Text
  ifaceInLine : '\n' ∉ iface
  detailsInLine : '\n' ∉ details
  stationFits : (stationLine mac iface).length + 1 < popenIwBuffSize
  signalFits : (signalLine signal details).length + 1 < popenIwBuffSize

def stationDump (stations : List IwStation) : Text :=
  stations.flatMap fun station =>
    stationLine station.mac station.iface ++
      '\n' :: (signalLine station.signal station.details ++ ['\n'])

/-- A listed station gets its own signal level, and any other one the unavailable value. -/
structure RssiBelongs (stations : List IwStation) (macaddr : Fin 6 → UInt8) : Prop where
  listed : ∀ station ∈ stations, station.mac = macaddr →
    getRssiFromIw macaddr (some (stationDump stations)) = some (station.signal : ℚ)
  unlisted : (∀ station ∈ stations, station.mac ≠ macaddr) →
    getRssiFromIw macaddr (some (stationDump stations)) = some rssiUnavailable

def FirstSuffices (stations : List IwStation) (macaddr : Fin 6 → UInt8) : Prop :=
  ∀ first ∈ stations.head?,
    (∀ station ∈ stations, station.mac = macaddr → station.signal = first.signal) ∧
      ((∀ station ∈ stations, station.mac ≠ macaddr) → (first.signal : ℚ) = rssiUnavailable)

/-! ## The characters of the lines -/

def TokenChar (char : Char) : Prop := char ∉ iwDelimiters ∧ char ≠ '\n'

instance (char : Char) : Decidable (TokenChar char) := inferInstanceAs (Decidable (_ ∧ _))

theorem tokenChar_of_all {text : Text} (all : text.all (decide <| TokenChar ·) = true) :
    ∀ char ∈ text, TokenChar char :=
  fun char member => of_decide_eq_true (List.all_eq_true.mp all char member)

theorem tokenChar_of_numberChar {char : Char} (number : NumberChar char) : TokenChar char := by
  have others : ∀ char ∈ ['-', '+', '.', 'e'], TokenChar char := tokenChar_of_all (by decide)
  rcases number with digit | other
  · constructor
    · intro member
      rcases List.mem_pair.mp member with rfl | rfl
      · cases digit
      · cases digit
    · rintro rfl
      cases digit
  · exact others char other

theorem tokenChar_lowerHexDigit (digit : Nat) : TokenChar (lowerHexDigit digit) := by
  have digits : ∀ char ∈ "0123456789abcdef".toList, TokenChar char :=
    tokenChar_of_all (by decide)
  rw [lowerHexDigit, List.getD_eq_getElem?_getD]
  cases found : "0123456789abcdef".toList[digit]? with
  | none => decide
  | some char => exact digits char (List.mem_of_getElem? found)

theorem tokenChar_intercalate {separator : Text} (separates : ∀ char ∈ separator, TokenChar char)
    {fields : List Text} (inside : ∀ field ∈ fields, ∀ char ∈ field, TokenChar char) :
    ∀ char ∈ separator.intercalate fields, TokenChar char := by
  induction fields with
  | nil => exact fun _ member => absurd member List.not_mem_nil
  | cons first rest induction =>
      have inFirst := inside first List.mem_cons_self
      have later := induction fun field member => inside field (List.mem_cons_of_mem first member)
      cases rest with
      | nil =>
          rw [List.intercalate_singleton]
          exact inFirst
      | cons second others =>
          intro char member
          rw [List.intercalate_cons_cons, List.append_assoc] at member
          rcases List.mem_append.mp member with first | behind
          · exact inFirst char first
          · rcases List.mem_append.mp behind with between | rest
            · exact separates char between
            · exact later char rest

theorem tokenChar_lowerMac (mac : Fin 6 → UInt8) : ∀ char ∈ lowerMac mac, TokenChar char := by
  apply tokenChar_intercalate
  · exact tokenChar_of_all (by decide)
  · intro field member char inField
    rcases List.mem_map.mp member with ⟨byte, _, rfl⟩
    rcases List.mem_pair.mp inField with rfl | rfl
    · exact tokenChar_lowerHexDigit _
    · exact tokenChar_lowerHexDigit _

theorem lowerMac_ne_nil (mac : Fin 6 → UInt8) : lowerMac mac ≠ [] := by
  simp [lowerMac, List.ofFn_succ]

theorem tokenChar_intText (number : Int) : ∀ char ∈ intText number, TokenChar char :=
  fun _ member => tokenChar_of_numberChar (intText_chars member)

theorem intText_ne_nil (number : Int) : intText number ≠ [] := by
  cases number with
  | ofNat number => exact natText_ne_nil number
  | negSucc number => exact List.cons_ne_nil _ _

theorem stationLine_inLine (station : IwStation) :
    '\n' ∉ stationLine station.mac station.iface := by
  have mac : '\n' ∉ lowerMac station.mac :=
    fun member => (tokenChar_lowerMac station.mac _ member).2 rfl
  intro member
  rcases List.mem_append.mp member with word | later
  · exact absurd word (by decide)
  · rcases List.mem_append.mp (List.mem_of_ne_of_mem (by decide) later) with address | later
    · exact mac address
    · rcases List.mem_append.mp (List.mem_of_ne_of_mem (by decide) later) with before | last
      · rcases List.mem_append.mp before with opening | iface
        · exact absurd opening (by decide)
        · exact station.ifaceInLine iface
      · exact absurd last (by decide)

theorem signalLine_inLine (station : IwStation) :
    '\n' ∉ signalLine station.signal station.details := by
  have number : '\n' ∉ intText station.signal :=
    fun member => (tokenChar_intText station.signal _ member).2 rfl
  intro member
  rcases List.mem_append.mp member with word | later
  · exact absurd word (by decide)
  · rcases List.mem_append.mp (List.mem_of_ne_of_mem (by decide) later) with signal | later
    · exact number signal
    · exact station.detailsInLine (List.mem_of_ne_of_mem (by decide) later)

/-! ## The parser on these lines -/

namespace IwParser

theorem nextToken_of_token {parser : IwParser} {token rest : Text}
    (saved : parser.saved = token ++ ' ' :: rest) (nonempty : token ≠ [])
    (inside : ∀ char ∈ token, TokenChar char) :
    parser.nextToken = { parser with pch := some token, saved := rest } := by
  rw [nextToken, saved, CText.strtok_append nonempty (fun char member => (inside char member).1)
    (by decide) rest]

theorem onLine_stationLine (macaddr : Fin 6 → UInt8) (parser : IwParser) (station : IwStation) :
    ∃ next, parser.onLine macaddr (stationLine station.mac station.iface ++ ['\n']) =
      some (next, false) ∧ next.signalLv = parser.signalLv := by
  let line := stationLine station.mac station.iface ++ ['\n']
  let later := lowerMac station.mac ++ ' ' :: ("(on ".toList ++ station.iface ++ [')']) ++ ['\n']
  have word : nextToken { parser with saved := line } =
      ⟨some "Station".toList, later, parser.signalLv⟩ :=
    nextToken_of_token (List.append_assoc _ _ _) (by decide) (tokenChar_of_all (by decide))
  have address : ∃ rest, nextToken ⟨some "Station".toList, later, parser.signalLv⟩ =
      ⟨some (lowerMac station.mac), rest, parser.signalLv⟩ :=
    ⟨_, nextToken_of_token (List.append_assoc _ _ _) (lowerMac_ne_nil station.mac)
      (tokenChar_lowerMac station.mac)⟩
  rcases address with ⟨rest, address⟩
  rw [onLine, word]
  dsimp only
  rw [if_pos (by decide), address]
  dsimp only
  split
  · refine ⟨_, rfl, ?_⟩
    rw [nextToken]
    split
    · rfl
    · rfl
  · exact ⟨_, rfl, rfl⟩

theorem onLine_signalLine (macaddr : Fin 6 → UInt8) (parser : IwParser) (station : IwStation) :
    ∃ next, parser.onLine macaddr (signalLine station.signal station.details ++ ['\n']) =
      some (next, true) ∧ next.signalLv = station.signal := by
  let line := signalLine station.signal station.details ++ ['\n']
  let later := intText station.signal ++ ' ' :: station.details ++ ['\n']
  have word : nextToken { parser with saved := line } =
      ⟨some "signal:".toList, later, parser.signalLv⟩ :=
    nextToken_of_token (List.append_assoc _ _ _) (by decide) (tokenChar_of_all (by decide))
  have number : nextToken ⟨some "signal:".toList, later, parser.signalLv⟩ =
      ⟨some (intText station.signal), station.details ++ ['\n'], parser.signalLv⟩ :=
    nextToken_of_token (List.append_assoc _ _ _) (intText_ne_nil station.signal)
      (tokenChar_intText station.signal)
  have value : strtod (intText station.signal) = station.signal := by
    rw [strtod, ← List.append_nil (intText station.signal),
      readDecimal_intText_append station.signal stops_nil]
    rfl
  rw [onLine, word]
  dsimp only
  rw [if_neg (by decide), if_pos (by decide), number]
  exact ⟨_, rfl, value⟩

end IwParser

/-! ## The level that is returned -/

theorem stationDump_cons (station : IwStation) (stations : List IwStation) :
    stationDump (station :: stations) =
      stationLine station.mac station.iface ++
        '\n' :: (signalLine station.signal station.details ++ '\n' :: stationDump stations) := by
  simp only [stationDump, List.flatMap_cons, List.append_assoc, List.cons_append,
    List.nil_append]

theorem readLines_stationDump (macaddr : Fin 6 → UInt8) (calls : Nat) (first : IwStation)
    (others : List IwStation) (parser : IwParser) :
    IwParser.readLines macaddr (calls + 2) (stationDump (first :: others)) parser =
      some (first.signal : ℚ) := by
  rcases parser.onLine_stationLine macaddr first with ⟨behindStation, station, _⟩
  rcases behindStation.onLine_signalLine macaddr first with ⟨behindSignal, signal, level⟩
  rw [stationDump_cons, IwParser.readLines,
    CText.fgets_append (stationLine_inLine first) first.stationFits]
  dsimp only
  rw [station]
  dsimp only
  rw [IwParser.readLines, CText.fgets_append (signalLine_inLine first) first.signalFits]
  dsimp only
  rw [signal]
  dsimp only
  rw [level]

/-- Whoever is asked for, the level is the one of the station that is listed first. -/
theorem getRssiFromIw_stationDump (stations : List IwStation) (macaddr : Fin 6 → UInt8) :
    getRssiFromIw macaddr (some (stationDump stations)) =
      some (stations.head?.elim rssiUnavailable fun first => (first.signal : ℚ)) := by
  cases stations with
  | nil => rfl
  | cons first others =>
      have nonempty : 0 < (stationDump (first :: others)).length := by
        rw [stationDump_cons, List.length_append, List.length_cons]
        omega
      have calls : (stationDump (first :: others)).length + 1 =
          (stationDump (first :: others)).length - 1 + 2 := by omega
      rw [getRssiFromIw, calls, readLines_stationDump]
      rfl

/-- The level belongs to the station exactly where the first one has it. -/
theorem rssiBelongs_iff (stations : List IwStation) (macaddr : Fin 6 → UInt8) :
    RssiBelongs stations macaddr ↔ FirstSuffices stations macaddr := by
  have returned := getRssiFromIw_stationDump stations macaddr
  cases stations with
  | nil =>
      constructor
      · intro _ first listed
        cases listed
      · intro _
        exact ⟨fun station listed => absurd listed List.not_mem_nil, fun _ => returned⟩
  | cons first others =>
      have level : getRssiFromIw macaddr (some (stationDump (first :: others))) =
          some (first.signal : ℚ) := returned
      constructor
      · rintro belongs other ⟨⟩
        constructor
        · intro station listed requested
          have same := (belongs.listed station listed requested).symm.trans level
          exact Rat.intCast_inj.mp (Option.some.inj same)
        · intro unlisted
          exact Option.some.inj (level.symm.trans (belongs.unlisted unlisted))
      · intro enough
        rcases enough first rfl with ⟨listed, unlisted⟩
        constructor
        · intro station member requested
          rw [level, listed station member requested]
        · intro absent
          rw [level, unlisted absent]

theorem rssiDBm_insertedRecord {client : SocketClient} {map : LDMMap} {reception : Reception}
    {locals : Locals} {vehdata : VehicleData}
    (record : insertedRecord client map reception locals = some vehdata)
    {stations : List IwStation}
    (asked : ∀ macaddr, getRssiFromIw macaddr (some (stationDump stations)) =
      some (reception.rssiFromIw macaddr)) :
    vehdata.rssiDBm = stations.head?.elim rssiUnavailable fun first => (first.signal : ℚ) := by
  rcases insertedRecord_eq_some_iff.mp record with ⟨_, _, decodedCam, _, _, rfl⟩
  have level := asked (macOf (decode client reception locals).decodedData.gnAddress)
  rw [getRssiFromIw_stationDump] at level
  exact (Option.some.inj level).symm

/-! ## Two stations -/

def nearStation : IwStation where
  mac := [0x02, 0, 0, 0, 0, 0x0a].get
  iface := "wlan0".toList
  signal := -50
  details := "[-52, -55] dBm".toList
  ifaceInLine := by decide
  detailsInLine := by decide
  stationFits := by decide
  signalFits := by decide

def farStation : IwStation where
  mac := [0x02, 0, 0, 0, 0, 0x0b].get
  iface := "wlan0".toList
  signal := -70
  details := "[-72, -75] dBm".toList
  ifaceInLine := by decide
  detailsInLine := by decide
  stationFits := by decide
  signalFits := by decide

/-- The level of the near station is taken for the far one. -/
theorem not_rssiBelongs_farStation :
    nearStation.mac ≠ farStation.mac ∧
      getRssiFromIw farStation.mac (some (stationDump [nearStation, farStation])) =
        some (-50) ∧
      ¬RssiBelongs [nearStation, farStation] farStation.mac := by
  have level := getRssiFromIw_stationDump [nearStation, farStation] farStation.mac
  refine ⟨fun same => absurd (congrFun same 5) (by decide), level, fun belongs => ?_⟩
  have own := belongs.listed farStation (List.mem_cons_of_mem _ List.mem_cons_self) rfl
  rw [level] at own
  exact absurd (Option.some.inj own) (by decide)

end AIM.Client
