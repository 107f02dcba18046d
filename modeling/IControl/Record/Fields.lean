import IControl.Record.Kind
import IControl.Record.Parts

/-!
# Own fields of each kind

The fields that a kind has beside the metadata and the shared settings. All of
them are optional, so that a record can be sent with just the fields that are
meant. The device serves more attributes for four of the kinds than are listed
here; those kinds are open and keep them.
-/

namespace IControl.Kind

def own : Kind → Fields
  | .httpMonitor =>
    .optional
      [("send", .text), ("recv", .text), ("recvDisable", .text), ("username", .text),
       ("password", .text), ("reverse", .text), ("transparent", .text), ("adaptive", .text),
       ("adaptiveLimit", .count)]
  | .httpsMonitor =>
    .optional
      [("send", .text), ("recv", .text), ("recvDisable", .text), ("username", .text),
       ("password", .text), ("reverse", .text), ("transparent", .text), ("adaptive", .text),
       ("cipherlist", .text), ("compatibility", .text), ("cert", .text), ("key", .text),
       ("sslProfile", .text)]
  | .tcpMonitor =>
    .optional
      [("send", .text), ("recv", .text), ("recvDisable", .text), ("reverse", .text),
       ("transparent", .text), ("adaptive", .text)]
  | .tcpHalfOpenMonitor =>
    .optional
      [("transparent", .text)]
  | .udpMonitor =>
    .optional
      [("send", .text), ("recv", .text), ("recvDisable", .text), ("reverse", .text),
       ("transparent", .text), ("debug", .text)]
  | .icmpMonitor =>
    .optional
      [("transparent", .text), ("adaptive", .text)]
  | .gatewayIcmpMonitor =>
    .optional
      [("transparent", .text), ("adaptive", .text)]
  | .externalMonitor =>
    .optional
      [("run", .text), ("args", .text), ("userDefined", .map)]
  | .inbandMonitor =>
    .optional
      [("failures", .count), ("failureInterval", .count), ("responseTime", .count),
       ("retryTime", .count)]
  | .ftpMonitor =>
    .optional
      [("username", .text), ("password", .text), ("filename", .text), ("mode", .text),
       ("debug", .text)]
  | .imapMonitor =>
    .optional
      [("username", .text), ("password", .text), ("folder", .text), ("debug", .text)]
  | .pop3Monitor =>
    .optional
      [("username", .text), ("password", .text), ("debug", .text)]
  | .smtpMonitor =>
    .optional
      [("domain", .text), ("debug", .text)]
  | .soapMonitor =>
    .optional
      [("urlPath", .text), ("method", .text), ("namespace", .text), ("parameterName", .text),
       ("parameterType", .text), ("parameterValue", .text), ("returnType", .text),
       ("returnValue", .text), ("protocol", .text), ("expectFault", .text), ("username", .text),
       ("password", .text), ("debug", .text)]
  | .diameterMonitor =>
    .optional
      [("hostIpAddress", .text), ("originHost", .text), ("originRealm", .text),
       ("productName", .text), ("vendorId", .count), ("authApplicationId", .count),
       ("acctApplicationId", .count), ("messageType", .text), ("debug", .text)]
  | .ldapMonitor =>
    .optional
      [("base", .text), ("filter", .text), ("security", .text), ("mandatoryAttributes", .text),
       ("chaseReferrals", .text), ("username", .text), ("password", .text), ("debug", .text)]
  | .radiusMonitor =>
    .optional
      [("username", .text), ("password", .text), ("secret", .text), ("nasIpAddress", .text),
       ("debug", .text)]
  | .sipMonitor =>
    .optional
      [("mode", .text), ("request", .text), ("headers", .text), ("filter", .text),
       ("filterNeg", .text), ("cert", .text), ("key", .text), ("cipherlist", .text),
       ("compatibility", .text), ("debug", .text)]
  | .snmpDcaMonitor =>
    .optional
      [("community", .text), ("version", .text), ("agentType", .text), ("cpuCoefficient", .text),
       ("cpuThreshold", .text), ("memoryCoefficient", .text), ("memoryThreshold", .text),
       ("diskCoefficient", .text), ("diskThreshold", .text)]
  | .snmpDcaBaseMonitor =>
    .optional
      [("community", .text), ("version", .text), ("userDefined", .map)]
  | .ntp =>
    .optional
      [("description", .text), ("servers", .list .text), ("timezone", .text),
       ("restrictReference", .reference)]
  | .snmp =>
    .optional
      [("agentAddresses", .list .text), ("agentTrap", .text), ("allowedAddresses", .list .text),
       ("authTrap", .text), ("bigipTraps", .text), ("loadMax1", .count), ("loadMax5", .count),
       ("loadMax15", .count), ("sysContact", .text), ("sysLocation", .text),
       ("sysServices", .count), ("trapCommunity", .text), ("trapSource", .text),
       ("communitiesReference", .reference), ("trapsReference", .reference),
       ("usersReference", .reference)]
  | .sshd =>
    .optional
      [("allow", .list .text), ("banner", .text), ("bannerText", .text),
       ("inactivityTimeout", .count), ("logLevel", .text), ("login", .text), ("port", .count),
       ("include", .text)]
  | .httpd =>
    .optional
      [("allow", .list .text), ("authName", .text), ("authPamIdleTimeout", .count),
       ("authPamValidateIp", .text), ("hostname", .text), ("logLevel", .text),
       ("maxClients", .count), ("redirectHttpToHttps", .text), ("sslCiphersuite", .text),
       ("sslPort", .count), ("sslProtocol", .text)]
  | .dns =>
    .optional
      [("description", .text), ("nameServers", .list .text), ("numberOfDots", .count),
       ("search", .list .text), ("include", .text)]
  | .globalSettings =>
    .optional
      [("hostname", .text), ("consoleInactivityTimeout", .count), ("guiSecurityBanner", .text),
       ("guiSecurityBannerText", .text), ("guiSetup", .text), ("lcdDisplay", .text),
       ("mgmtDhcp", .text), ("netReboot", .text), ("quietBoot", .text)]
  | .syslog =>
    .optional
      [("authPrivFrom", .text), ("authPrivTo", .text), ("consoleLog", .text), ("isoDate", .text),
       ("kernFrom", .text), ("kernTo", .text), ("remoteServers", .list .syslogServer),
       ("include", .text)]
  | .db =>
    .optional
      [("value", .text), ("defaultValue", .text), ("scfConfig", .text), ("valueRange", .text)]
  | .provision =>
    .optional
      [("level", .text), ("cpuRatio", .count), ("diskRatio", .count), ("memoryRatio", .count)]
  | .folder =>
    .optional
      [("description", .text), ("deviceGroup", .text), ("hidden", .text),
       ("inheritedDevicegroup", .text), ("inheritedTrafficGroup", .text), ("noRefCheck", .text),
       ("trafficGroup", .text)]
  | .managementIp =>
    .optional
      [("description", .text)]
  | .managementRoute =>
    .optional
      [("description", .text), ("gateway", .text), ("network", .text), ("mtu", .count)]
  | .softwareVolume =>
    .optional
      [("active", .flag), ("basebuild", .text), ("build", .text), ("product", .text),
       ("status", .text), ("version", .text), ("media", .list .volumeMedia)]
  | .softwareImage =>
    .optional
      [("build", .text), ("buildDate", .text), ("checksum", .text), ("fileSize", .text),
       ("lastModified", .text), ("product", .text), ("verified", .text), ("version", .text)]
  | .softwareHotfix =>
    .optional
      [("build", .text), ("checksum", .text), ("id", .text), ("product", .text), ("title", .text),
       ("verified", .text), ("version", .text)]
  | .softwareUpdate =>
    .optional
      [("autoCheck", .text), ("autoPhonehome", .text), ("frequency", .text)]
  | .logicalDisk =>
    .optional
      [("mode", .text), ("size", .count), ("vgFree", .count), ("vgInUse", .count),
       ("vgReserved", .count)]
  | .applicationVolume =>
    .optional
      [("logicalDisk", .text), ("owner", .text), ("preservability", .text), ("resizeable", .flag),
       ("size", .count)]
  | .ipfixElement =>
    .optional
      [("description", .text), ("id", .count), ("dataType", .text), ("enterpriseId", .count),
       ("size", .count)]
  | .ipfixIrulesElement =>
    .optional
      [("description", .text), ("id", .count), ("dataType", .text), ("enterpriseId", .count),
       ("size", .count)]
  | .raidArray =>
    .optional
      [("status", .text), ("size", .count)]
  | .raidDisk =>
    .optional
      [("arrayMember", .text), ("arrayStatus", .text), ("mediaType", .text), ("model", .text),
       ("serialNumber", .text), ("size", .count)]
  | .raidBay =>
    .optional
      [("status", .text), ("disk", .text)]
  | .applicationService =>
    .optional
      [("description", .text), ("template", .text), ("templateModified", .text),
       ("deviceGroup", .text), ("trafficGroup", .text), ("inheritedDevicegroup", .text),
       ("inheritedTrafficGroup", .text), ("strictUpdates", .text),
       ("variables", .list .serviceVariable), ("lists", .list .serviceList),
       ("tables", .list .serviceTable)]
  | .applicationTemplate =>
    .optional
      [("description", .text), ("ignoreVerification", .text), ("requiresBigipVersionMin", .text),
       ("requiresBigipVersionMax", .text), ("requiresModules", .list .text),
       ("totalSigningStatus", .text), ("verificationStatus", .text),
       ("actionsReference", .reference)]
  | .aplScript =>
    .optional
      [("apiAnonymous", .text), ("ignoreVerification", .text), ("totalSigningStatus", .text),
       ("verificationStatus", .text)]
  | .customStat =>
    .optional
      [("description", .text), ("appService", .text)]
  | .cloudProvider =>
    .optional
      [("description", .text), ("propertyTemplate", .list .tree)]

def settings (k : Kind) : Fields :=
  match k.area with
  | .monitor => monitorSettings
  | _ => .nil

/-- Kinds whose records keep the attributes that they have no field for. -/
def isOpen : Kind → Bool
  | .raidArray | .raidDisk | .raidBay | .customStat => true
  | _ => false

end IControl.Kind
