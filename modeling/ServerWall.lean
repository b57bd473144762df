import ServerWall.Antispam.Body
import ServerWall.Antispam.Dmarc
import ServerWall.Antispam.Links
import ServerWall.Antispam.Residential
import ServerWall.Core.Ja3
import ServerWall.Core.Recovery
import ServerWall.Core.References
import ServerWall.Core.RoundTrip
import ServerWall.Core.Sections
import ServerWall.Core.Updates
import ServerWall.Proxy.Antivirus
import ServerWall.Proxy.BackendTls
import ServerWall.Proxy.Banner
import ServerWall.Proxy.Drain
import ServerWall.Proxy.Durations
import ServerWall.Proxy.HeaderBlock
import ServerWall.Proxy.Paths
import ServerWall.Proxy.Policy
import ServerWall.Proxy.Replies
import ServerWall.Proxy.Selection
import ServerWall.Proxy.Shutdown
import ServerWall.Proxy.SmtpLimits
import ServerWall.Proxy.Sniffing
import ServerWall.Proxy.Transaction
import ServerWall.Proxy.Truncation
import ServerWall.Proxy.Unlisting
import ServerWall.Relay.Bounces
import ServerWall.Relay.Capacity
import ServerWall.Relay.Duplicates
import ServerWall.Relay.Hold
import ServerWall.Relay.Loss
import ServerWall.Relay.Pairing
import ServerWall.Relay.Passage
import ServerWall.Relay.Purge
import ServerWall.Relay.Quota
import ServerWall.Relay.Replies
import ServerWall.Relay.Retries
import ServerWall.Relay.Routing
import ServerWall.Relay.Trust
import ServerWall.Smtp.Addresses
import ServerWall.Smtp.Buffers
import ServerWall.Smtp.Greeting
import ServerWall.Waf.Evasion
import ServerWall.Waf.Eviction
import ServerWall.Waf.Modes
import ServerWall.Webui.Auth
import ServerWall.Webui.Certificates
import ServerWall.Webui.Logs
