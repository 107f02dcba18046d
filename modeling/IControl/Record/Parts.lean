import IControl.Shape.Basic

/-!
# Parts of configuration objects

Shapes that occur inside the own fields of several kinds, and the settings that
all monitors share.
-/

namespace IControl

namespace Shape

/-- A link to another object or to a collection below this one. -/
def reference : Shape :=
  .struct (.ofList
    [(.defaulted "link", .text), (.optional "isSubcollection", .flag)])

/-- A remote server that log messages are sent to. -/
def syslogServer : Shape :=
  .struct (.ofList
    [(.required "name", .text), (.required "host", .text), (.optional "localIp", .text),
     (.optional "remotePort", .count)])

/-- The medium that a software volume lies on. -/
def volumeMedia : Shape :=
  .struct (.ofList
    [(.required "name", .text), (.optional "defaultBootLocation", .flag),
     (.optional "media", .text), (.optional "size", .text)])

/-- A variable of an application service. -/
def serviceVariable : Shape :=
  .struct (.ofList
    [(.required "name", .text), (.optional "encrypted", .text), (.defaulted "value", .text)])

/-- A list of values of an application service. -/
def serviceList : Shape :=
  .struct (.ofList
    [(.required "name", .text), (.optional "encrypted", .text), (.defaulted "value", .list .text)])

def serviceTableRow : Shape :=
  .struct (.ofList
    [(.defaulted "row", .list .text)])

/-- A table of an application service: the names of its columns and its rows. -/
def serviceTable : Shape :=
  .struct (.ofList
    [(.required "name", .text), (.optional "columnNames", .list .text),
     (.optional "rows", .list .serviceTableRow)])

end Shape

/-- The settings that all monitors share. -/
def monitorSettings : Fields :=
  .optional
    [("defaultsFrom", .text), ("description", .text), ("destination", .text),
     ("interval", .count), ("timeout", .count), ("timeUntilUp", .count), ("upInterval", .count),
     ("manualResume", .text), ("ipDscp", .count), ("appService", .text)]

end IControl
