import IControl.ResourcePath

/-!
# Kinds of configuration objects

The kinds of objects that the interface serves, where each lives, and what may
be done with it. Most kinds form collections of named objects; a few are
singletons, of which a device has exactly one. The monitors live below `ltm`,
everything else below `sys`, some of it in areas of its own.
-/

namespace IControl

inductive Kind where
  | httpMonitor
  | httpsMonitor
  | tcpMonitor
  | tcpHalfOpenMonitor
  | udpMonitor
  | icmpMonitor
  | gatewayIcmpMonitor
  | externalMonitor
  | inbandMonitor
  | ftpMonitor
  | imapMonitor
  | pop3Monitor
  | smtpMonitor
  | soapMonitor
  | diameterMonitor
  | ldapMonitor
  | radiusMonitor
  | sipMonitor
  | snmpDcaMonitor
  | snmpDcaBaseMonitor
  | ntp
  | snmp
  | sshd
  | httpd
  | dns
  | globalSettings
  | syslog
  | db
  | provision
  | folder
  | managementIp
  | managementRoute
  | softwareVolume
  | softwareImage
  | softwareHotfix
  | softwareUpdate
  | logicalDisk
  | applicationVolume
  | ipfixElement
  | ipfixIrulesElement
  | raidArray
  | raidDisk
  | raidBay
  | applicationService
  | applicationTemplate
  | aplScript
  | customStat
  | cloudProvider
  deriving DecidableEq, Repr

namespace Kind

def all : List Kind :=
  [.httpMonitor, .httpsMonitor, .tcpMonitor, .tcpHalfOpenMonitor, .udpMonitor, .icmpMonitor,
   .gatewayIcmpMonitor, .externalMonitor, .inbandMonitor, .ftpMonitor, .imapMonitor,
   .pop3Monitor, .smtpMonitor, .soapMonitor, .diameterMonitor, .ldapMonitor, .radiusMonitor,
   .sipMonitor, .snmpDcaMonitor, .snmpDcaBaseMonitor, .ntp, .snmp, .sshd, .httpd, .dns,
   .globalSettings, .syslog, .db, .provision, .folder, .managementIp, .managementRoute,
   .softwareVolume, .softwareImage, .softwareHotfix, .softwareUpdate, .logicalDisk,
   .applicationVolume, .ipfixElement, .ipfixIrulesElement, .raidArray, .raidDisk, .raidBay,
   .applicationService, .applicationTemplate, .aplScript, .customStat, .cloudProvider]

/-- The areas in which kinds are gathered. -/
inductive Area where
  | monitor
  | sys
  | software
  | disk
  | ipfix
  | raid
  | application
  | ecm
  deriving DecidableEq, Repr

def area : Kind → Area
  | .httpMonitor | .httpsMonitor | .tcpMonitor | .tcpHalfOpenMonitor | .udpMonitor
  | .icmpMonitor | .gatewayIcmpMonitor | .externalMonitor | .inbandMonitor | .ftpMonitor
  | .imapMonitor | .pop3Monitor | .smtpMonitor | .soapMonitor | .diameterMonitor
  | .ldapMonitor | .radiusMonitor | .sipMonitor | .snmpDcaMonitor | .snmpDcaBaseMonitor => .monitor
  | .ntp | .snmp | .sshd | .httpd | .dns | .globalSettings | .syslog | .db | .provision
  | .folder | .managementIp | .managementRoute => .sys
  | .softwareVolume | .softwareImage | .softwareHotfix | .softwareUpdate => .software
  | .logicalDisk | .applicationVolume => .disk
  | .ipfixElement | .ipfixIrulesElement => .ipfix
  | .raidArray | .raidDisk | .raidBay => .raid
  | .applicationService | .applicationTemplate | .aplScript | .customStat => .application
  | .cloudProvider => .ecm

/-- A collection of named objects, or the one object of its kind. -/
inductive Form where
  | collection
  | singleton
  deriving DecidableEq, Repr

def form : Kind → Form
  | .ntp | .snmp | .sshd | .httpd | .dns | .globalSettings | .syslog | .softwareUpdate => .singleton
  | _ => .collection

/-- Where the objects of a kind live. -/
def path : Kind → ResourcePath
  | .httpMonitor => (ResourcePath.ltm "monitor").sub "http"
  | .httpsMonitor => (ResourcePath.ltm "monitor").sub "https"
  | .tcpMonitor => (ResourcePath.ltm "monitor").sub "tcp"
  | .tcpHalfOpenMonitor => (ResourcePath.ltm "monitor").sub "tcp-half-open"
  | .udpMonitor => (ResourcePath.ltm "monitor").sub "udp"
  | .icmpMonitor => (ResourcePath.ltm "monitor").sub "icmp"
  | .gatewayIcmpMonitor => (ResourcePath.ltm "monitor").sub "gateway-icmp"
  | .externalMonitor => (ResourcePath.ltm "monitor").sub "external"
  | .inbandMonitor => (ResourcePath.ltm "monitor").sub "inband"
  | .ftpMonitor => (ResourcePath.ltm "monitor").sub "ftp"
  | .imapMonitor => (ResourcePath.ltm "monitor").sub "imap"
  | .pop3Monitor => (ResourcePath.ltm "monitor").sub "pop3"
  | .smtpMonitor => (ResourcePath.ltm "monitor").sub "smtp"
  | .soapMonitor => (ResourcePath.ltm "monitor").sub "soap"
  | .diameterMonitor => (ResourcePath.ltm "monitor").sub "diameter"
  | .ldapMonitor => (ResourcePath.ltm "monitor").sub "ldap"
  | .radiusMonitor => (ResourcePath.ltm "monitor").sub "radius"
  | .sipMonitor => (ResourcePath.ltm "monitor").sub "sip"
  | .snmpDcaMonitor => (ResourcePath.ltm "monitor").sub "snmp-dca"
  | .snmpDcaBaseMonitor => (ResourcePath.ltm "monitor").sub "snmp-dca-base"
  | .ntp => .sys "ntp"
  | .snmp => .sys "snmp"
  | .sshd => .sys "sshd"
  | .httpd => .sys "httpd"
  | .dns => .sys "dns"
  | .globalSettings => .sys "global-settings"
  | .syslog => .sys "syslog"
  | .db => .sys "db"
  | .provision => .sys "provision"
  | .folder => .sys "folder"
  | .managementIp => .sys "management-ip"
  | .managementRoute => .sys "management-route"
  | .softwareVolume => (ResourcePath.sys "software").sub "volume"
  | .softwareImage => (ResourcePath.sys "software").sub "image"
  | .softwareHotfix => (ResourcePath.sys "software").sub "hotfix"
  | .softwareUpdate => (ResourcePath.sys "software").sub "update"
  | .logicalDisk => (ResourcePath.sys "disk").sub "logical-disk"
  | .applicationVolume => (ResourcePath.sys "disk").sub "application-volume"
  | .ipfixElement => (ResourcePath.sys "ipfix").sub "element"
  | .ipfixIrulesElement => (ResourcePath.sys "ipfix").sub "irules-element"
  | .raidArray => (ResourcePath.sys "raid").sub "array"
  | .raidDisk => (ResourcePath.sys "raid").sub "disk"
  | .raidBay => (ResourcePath.sys "raid").sub "bay"
  | .applicationService => (ResourcePath.sys "application").sub "service"
  | .applicationTemplate => (ResourcePath.sys "application").sub "template"
  | .aplScript => (ResourcePath.sys "application").sub "apl-script"
  | .customStat => (ResourcePath.sys "application").sub "custom-stat"
  | .cloudProvider => (ResourcePath.sys "ecm").sub "cloud-provider"

def isCreatable : Kind → Bool
  | .ntp | .snmp | .sshd | .httpd | .dns | .globalSettings | .syslog | .db | .provision
  | .softwareImage | .softwareHotfix | .softwareUpdate | .logicalDisk | .raidArray
  | .raidDisk | .raidBay => false
  | _ => true

def isUpdatable : Kind → Bool
  | .softwareVolume | .softwareImage | .softwareHotfix | .logicalDisk | .raidArray
  | .raidDisk | .raidBay => false
  | _ => true

def isDeletable : Kind → Bool
  | .ntp | .snmp | .sshd | .httpd | .dns | .globalSettings | .syslog | .db | .provision
  | .softwareUpdate | .logicalDisk | .raidArray | .raidDisk | .raidBay => false
  | _ => true

end Kind

end IControl
