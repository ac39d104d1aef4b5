import ModelCatalog.Proofs.ServedCommands
import ModelCatalog.Proofs.WireRecords

namespace ModelCatalog

open Operation (Succeeds)

namespace Json

variable {α : Type} {toJson : α → Value} {ofJson? : Value → Option α} {l : List α}

end Json

namespace Tables.Counted

variable {t t' : Tables} {call : Call} {now : Instant} {key : VersionKey} {v : Version} {vs : List Version}

end Tables.Counted

namespace Answer

variable {m : Model} {ms : List Model} {v : Version} {vs : List Version}

end Answer

namespace CommandLine

variable {s : Settings} {now : Instant} {db after after' : Database} {call : Call} {a : Answer} {line : String}

end CommandLine

end ModelCatalog
